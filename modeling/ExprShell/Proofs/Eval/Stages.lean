/-
How the commands of a pipeline are built. A stage is written as lists of variables, what names the
program, and arguments, and is built by evaluating operands with checks between them. How, is said
by rules (`BuildsStage`, and `BuildsAll` for several stages, from the left until one fails), which
keep account of the operands that were evaluated, each with the state in which it was. One of the
rules applies to any stage (`BuildsStage.total`), and the evaluator goes by it and makes no requests
but those of the operands (`BuildsStage.asks`), which come in the order in which they are written
(`BuildsStage.covers`).
-/
import ExprShell.Proofs.Eval.Recording

namespace ExprShell

variable {σ α : Type}

/-! ## Arguments and variables -/

namespace Node

mutual

/-- The leaves of a value that are no lists, in order. -/
def leaves : Node → List Node
  | .list _ items => leavesOf items
  | n => [n]

/-- The leaves of several values. -/
def leavesOf : List Node → List Node
  | [] => []
  | n :: rest => n.leaves ++ leavesOf rest

end

mutual

theorem arguments_eq (n : Node) : n.arguments = n.leaves.map plain := by
  cases n with
  | list t items => exact argumentsOf_eq items
  | _ => rfl

/-- A value stands for one argument for each of its leaves. -/
theorem argumentsOf_eq (values : List Node) : argumentsOf values = (leavesOf values).map plain := by
  cases values with
  | nil => rfl
  | cons n rest => rw [argumentsOf, leavesOf, List.map_append, arguments_eq n, argumentsOf_eq rest]

end

end Node

/-- What lists of variables say: names and values in turn, from the first list on, unless one of
them has a name without a value. -/
inductive Overrides : List Node → Except Fault (List (String × String)) → Prop
  | nil : Overrides [] (.ok [])
  | unpaired {t : Stamp} {items rest : List Node} : items.length % 2 = 1 →
    Overrides (.list t items :: rest) (.error
      (.invalidArguments "environment override" (.unpairedOverrides (.list t items))))
  | pairs {t : Stamp} {items rest : List Node} {pairs : List (String × String)}
    {r : Except Fault (List (String × String))} :
    items.map Node.plain = pairs.flatMap (fun p => [p.1, p.2]) → Overrides rest r →
    Overrides (.list t items :: rest) (r.map (pairs ++ ·))

theorem Node.pairs?_eq_none_iff {items : List Node} :
    pairs? items = none ↔ items.length % 2 = 1 := by
  induction items using pairs?.induct with
  | case1 => simp [pairs?]
  | case2 n => simp [pairs?]
  | case3 a b rest ih =>
    rw [pairs?, Option.map_eq_none_iff, ih]
    simp only [List.length_cons]
    omega

theorem Node.pairs?_eq_some_iff {items : List Node} {pairs : List (String × String)} :
    pairs? items = some pairs ↔ items.map plain = pairs.flatMap fun p => [p.1, p.2] := by
  induction items using pairs?.induct generalizing pairs with
  | case1 =>
    cases pairs with
    | nil => simp [pairs?]
    | cons p others => simp [pairs?]
  | case2 n =>
    cases pairs with
    | nil => simp [pairs?]
    | cons p others => simp [pairs?]
  | case3 a b rest ih =>
    rw [pairs?, Option.map_eq_some_iff]
    cases pairs with
    | nil => simp
    | cons p others =>
      obtain ⟨name, value⟩ := p
      simp [ih, and_assoc, and_comm]

namespace Command

theorem overrides_of_unpaired {t : Stamp} {items : List Node} (h : items.length % 2 = 1)
    (rest : List Node) : overrides (.list t items :: rest) = .error
      (.invalidArguments "environment override" (.unpairedOverrides (.list t items))) := by
  rw [overrides]
  simp only [Node.asList, bind, Except.bind, Node.pairs?_eq_none_iff.2 h]
  rfl

theorem overrides_of_pairs {t : Stamp} {items : List Node} {pairs : List (String × String)}
    (h : items.map Node.plain = pairs.flatMap fun p => [p.1, p.2]) (rest : List Node) :
    overrides (.list t items :: rest) = (overrides rest).map (pairs ++ ·) := by
  rw [overrides]
  simp only [Node.asList, bind, Except.bind, Node.pairs?_eq_some_iff.2 h]
  cases overrides rest with
  | _ => rfl

/-- Lists of variables are read as they say. -/
theorem overrides_spec {lists : List Node} (hdata : ∀ n ∈ lists, n.isData = true) :
    Overrides lists (overrides lists) := by
  induction lists with
  | nil => exact .nil
  | cons n rest ih =>
    obtain ⟨hn, hrest⟩ := List.forall_mem_cons.1 hdata
    cases n with
    | list t items =>
      cases hpairs : Node.pairs? items with
      | none =>
        have hodd := Node.pairs?_eq_none_iff.1 hpairs
        rw [overrides_of_unpaired hodd]
        exact .unpaired hodd
      | some pairs =>
        have heven := Node.pairs?_eq_some_iff.1 hpairs
        rw [overrides_of_pairs heven]
        exact .pairs heven (ih hrest)
    | _ => cases hn

theorem overrides_eq {lists : List Node} {r : Except Fault (List (String × String))}
    (h : Overrides lists r) : overrides lists = r := by
  induction h with
  | nil => rfl
  | unpaired hodd => exact overrides_of_unpaired hodd _
  | pairs heven _ ih => rw [overrides_of_pairs heven, ih]

end Command

namespace Eval

/-! ## Rules -/

/-- A stage as it is written: its items, or the fault of writing something else. -/
abbrev Stage := Except Fault (List Node)

/-- An operand that was evaluated, and the state in which it was. -/
structure Step (σ : Type) where
  node : Node
  state : State σ

section Rules

variable (setup : Setup σ) (re : Reentry σ)

/-- Operands are evaluated from the left until one halts. -/
inductive EvaluatesAll :
    State σ → List Node → List (Step σ) → Except Halt (List Node) → State σ → Prop
  | nil {s : State σ} : EvaluatesAll s [] [] (.ok []) s
  | halts {s s' : State σ} {n : Node} {rest : List Node} {e : Halt} :
    evalNode setup re n s = (.error e, s') → EvaluatesAll s (n :: rest) [⟨n, s⟩] (.error e) s'
  | next {s s' s'' : State σ} {n value : Node} {rest : List Node} {steps : List (Step σ)}
    {r : Except Halt (List Node)} :
    evalNode setup re n s = (.ok value, s') → EvaluatesAll s' rest steps r s'' →
    EvaluatesAll s (n :: rest) (⟨n, s⟩ :: steps) (r.map (value :: ·)) s''

/-- The items of a stage are lists of variables, what names the program, and its arguments. -/
structure Spells (items lists : List Node) (head : Node) (args : List Node) : Prop where
  items_eq : items = lists ++ head :: args
  data : ∀ n ∈ lists, n.isData = true
  head_not_data : head.isData = false

/-- A stage is built, or the first thing that is wrong with it is found: lists of variables are
checked, the program is looked for in the state that naming it leaves, and then the arguments are
evaluated. -/
inductive BuildsStage :
    State σ → List Node → List (Step σ) → Except Halt Command → State σ → Prop
  | noProgram {s : State σ} {items : List Node} : (∀ n ∈ items, n.isData = true) →
    BuildsStage s items [] (.error (.fault (.runtime .overridesWithoutCommand))) s
  | badOverrides {s : State σ} {items lists args : List Node} {head : Node} {f : Fault} :
    Spells items lists head args → Overrides lists (.error f) →
    BuildsStage s items [] (.error (.fault f)) s
  | headHalts {s s' : State σ} {items lists args : List Node} {head : Node}
    {env : List (String × String)} {e : Halt} :
    Spells items lists head args → Overrides lists (.ok env) →
    evalNode setup re head s = (.error e, s') →
    BuildsStage s items [⟨head, s⟩] (.error e) s'
  | unresolved {s s' : State σ} {items lists args : List Node} {head name : Node}
    {env : List (String × String)} :
    Spells items lists head args → Overrides lists (.ok env) →
    evalNode setup re head s = (.ok name, s') → setup.program? s'.host name.plain = none →
    BuildsStage s items [⟨head, s⟩] (.error (.fault (.unboundProcedure name.plain))) s'
  | resolved {s s' s'' : State σ} {items lists args : List Node} {head name : Node}
    {env : List (String × String)} {program : String} {steps : List (Step σ)}
    {r : Except Halt (List Node)} :
    Spells items lists head args → Overrides lists (.ok env) →
    evalNode setup re head s = (.ok name, s') →
    setup.program? s'.host name.plain = some program →
    EvaluatesAll setup re s' args steps r s'' →
    BuildsStage s items (⟨head, s⟩ :: steps)
      (r.map fun values => { program, args := (Node.leavesOf values).map Node.plain, env }) s''

/-- Stages are built from the left until one fails. -/
inductive BuildsAll :
    State σ → List Stage → List (Step σ) → Except Halt (List Command) → State σ → Prop
  | nil {s : State σ} : BuildsAll s [] [] (.ok []) s
  | noStage {s : State σ} {rest : List Stage} {f : Fault} :
    BuildsAll s (.error f :: rest) [] (.error (.fault f)) s
  | halts {s s' : State σ} {items : List Node} {rest : List Stage} {steps : List (Step σ)}
    {e : Halt} :
    BuildsStage setup re s items steps (.error e) s' →
    BuildsAll s (.ok items :: rest) steps (.error e) s'
  | next {s s' s'' : State σ} {items : List Node} {rest : List Stage} {steps more : List (Step σ)}
    {command : Command} {r : Except Halt (List Command)} :
    BuildsStage setup re s items steps (.ok command) s' → BuildsAll s' rest more r s'' →
    BuildsAll s (.ok items :: rest) (steps ++ more) (r.map (command :: ·)) s''

end Rules

/-! ## Every stage is built or fails -/

section Totality

variable (setup : Setup σ) (re : Reentry σ)

theorem EvaluatesAll.total (s : State σ) (args : List Node) :
    ∃ steps r s', EvaluatesAll setup re s args steps r s' := by
  induction args generalizing s with
  | nil => exact ⟨[], _, s, .nil⟩
  | cons n rest ih =>
    cases h : evalNode setup re n s with
    | mk outcome s' =>
      cases outcome with
      | error e => exact ⟨_, _, s', .halts h⟩
      | ok value =>
        obtain ⟨steps, r, s'', hrest⟩ := ih s'
        exact ⟨_, _, s'', .next h hrest⟩

/-- The lists of variables of a stage end where its program is named. -/
theorem exists_spells (items : List Node) :
    (∀ n ∈ items, n.isData = true) ∨ ∃ lists head args, Spells items lists head args := by
  induction items with
  | nil => exact .inl (by simp)
  | cons n rest ih =>
    by_cases hn : n.isData = true
    · rcases ih with hdata | ⟨lists, head, args, hspells⟩
      · exact .inl (List.forall_mem_cons.2 ⟨hn, hdata⟩)
      · refine .inr ⟨n :: lists, head, args, ?_, ?_, hspells.head_not_data⟩
        · rw [hspells.items_eq, List.cons_append]
        · exact List.forall_mem_cons.2 ⟨hn, hspells.data⟩
    · exact .inr ⟨[], n, rest, rfl, by simp, eq_false_of_ne_true hn⟩

theorem BuildsStage.total (s : State σ) (items : List Node) :
    ∃ steps r s', BuildsStage setup re s items steps r s' := by
  rcases exists_spells items with hdata | ⟨lists, head, args, hspells⟩
  · exact ⟨_, _, s, .noProgram hdata⟩
  -- Each check that may fail has its rule, in the order in which the checks are made.
  have hoverrides := Command.overrides_spec hspells.data
  cases henv : Command.overrides lists with
  | error f => exact ⟨_, _, s, .badOverrides hspells (henv ▸ hoverrides)⟩
  | ok env =>
    rw [henv] at hoverrides
    cases hhead : evalNode setup re head s with
    | mk outcome s' =>
      cases outcome with
      | error e => exact ⟨_, _, s', .headHalts hspells hoverrides hhead⟩
      | ok name =>
        cases hprogram : setup.program? s'.host name.plain with
        | none => exact ⟨_, _, s', .unresolved hspells hoverrides hhead hprogram⟩
        | some program =>
          obtain ⟨steps, r, s'', hargs⟩ := EvaluatesAll.total setup re s' args
          exact ⟨_, _, s'', .resolved hspells hoverrides hhead hprogram hargs⟩

theorem BuildsAll.total (s : State σ) (stages : List Stage) :
    ∃ steps r s', BuildsAll setup re s stages steps r s' := by
  induction stages generalizing s with
  | nil => exact ⟨_, _, s, .nil⟩
  | cons stage rest ih =>
    cases stage with
    | error f => exact ⟨_, _, s, .noStage⟩
    | ok items =>
      obtain ⟨steps, r, s', hstage⟩ := BuildsStage.total setup re s items
      cases r with
      | error e => exact ⟨_, _, s', .halts hstage⟩
      | ok command =>
        obtain ⟨more, r, s'', hrest⟩ := ih s'
        exact ⟨_, _, s'', .next hstage hrest⟩

end Totality

/-! ## The evaluator goes by the rules -/

/-- The name of a program is what its head comes to; a name at the head comes to itself. -/
theorem evalName_eq (setup : Setup σ) (re : Reentry σ) (n : Node) :
    evalName setup re n = evalNode setup re n >>= fun value => pure value.plain := by
  cases n with
  | list t items =>
    rw [evalName, evalNode]
    split
    · rfl
    · rfl
  | _ => rfl

theorem programPath_of_some {setup : Setup σ} {s : State σ} {name program : String}
    (h : setup.program? s.host name = some program) :
    programPath setup name s = (.ok program, s) := by
  rw [programPath, h]

theorem programPath_of_none {setup : Setup σ} {s : State σ} {name : String}
    (h : setup.program? s.host name = none) :
    programPath setup name s = (.error (.fault (.unboundProcedure name)), s) := by
  rw [programPath, h]
  rfl

/-- Lists of variables are taken off the front of a stage. -/
theorem evalStage_data (setup : Setup σ) (re : Reentry σ) {lists : List Node}
    (hdata : ∀ n ∈ lists, n.isData = true) (taken rest : List Node) :
    evalStage setup re taken (lists ++ rest) = evalStage setup re (taken ++ lists) rest := by
  induction lists generalizing taken with
  | nil => rw [List.append_nil, List.nil_append]
  | cons n lists ih =>
    obtain ⟨hn, hlists⟩ := List.forall_mem_cons.1 hdata
    rw [List.cons_append, evalStage, if_pos hn, ih hlists, List.append_assoc, List.singleton_append]

theorem evalStage_of_spells (setup : Setup σ) (re : Reentry σ) {items lists args : List Node}
    {head : Node} (h : Spells items lists head args) :
    evalStage setup re [] items = ofExcept (Command.overrides lists) >>= fun env =>
      (evalNode setup re head >>= fun value => pure value.plain) >>= fun name =>
        programPath setup name >>= fun program => evalArgs setup re args >>= fun values =>
          pure { program, args := (Node.leavesOf values).map Node.plain, env } := by
  rw [h.items_eq, evalStage_data setup re h.data, List.nil_append, evalStage,
    if_neg (by rw [h.head_not_data]; decide), ← evalName_eq]
  simp only [Node.argumentsOf_eq]

/-- The stages built from the left. -/
def buildStages (setup : Setup σ) (re : Reentry σ) : List Stage → Eval σ (List Command)
  | [] => pure []
  | stage :: rest => do
    let items ← ofExcept stage
    let command ← evalStage setup re [] items
    let commands ← buildStages setup re rest
    return command :: commands

/-- The requests of operands, one operand after the other. -/
def requestsOf (setup : Setup σ) (budget room : Nat) (steps : List (Step σ)) : List Request :=
  steps.flatMap fun step => requests setup budget room step.node step.state

section Soundness

variable {setup : Setup σ} {budget room : Nat} {s s' : State σ} {steps : List (Step σ)}

theorem requestsOf_singleton (step : Step σ) :
    requestsOf setup budget room [step] = requests setup budget room step.node step.state := by
  simp [requestsOf]

theorem asks_of_evalNode {n : Node} {r : Except Halt Node}
    (h : evalNode setup (setup.within budget room) n s = (r, s')) :
    Asks (evalNode setup.recorded (setup.recorded.within budget room) n) s r s'
      (requests setup budget room n s) := by
  have hasks := evalNode_asks setup budget room n s
  rw [h] at hasks
  exact hasks

theorem EvaluatesAll.asks {args : List Node} {r : Except Halt (List Node)}
    (h : EvaluatesAll setup (setup.within budget room) s args steps r s') :
    Asks (evalArgs setup.recorded (setup.recorded.within budget room) args) s r s'
      (requestsOf setup budget room steps) := by
  induction h with
  | nil => exact .pure [] _
  | halts hn =>
    rw [requestsOf_singleton]
    exact (asks_of_evalNode hn).bind_error
  | next hn _ ih => exact (asks_of_evalNode hn).bind ih.map

theorem BuildsStage.asks {items : List Node} {r : Except Halt Command}
    (h : BuildsStage setup (setup.within budget room) s items steps r s') :
    Asks (evalStage setup.recorded (setup.recorded.within budget room) [] items) s r s'
      (requestsOf setup budget room steps) := by
  cases h with
  | noProgram hdata =>
    have htaken := evalStage_data setup.recorded (setup.recorded.within budget room) hdata [] []
    rw [List.append_nil] at htaken
    rw [htaken]
    exact .fail (.runtime .overridesWithoutCommand) s
  | badOverrides hspells hlists =>
    rw [evalStage_of_spells _ _ hspells, Command.overrides_eq hlists]
    exact (Asks.fail _ s).bind_error
  | headHalts hspells hlists hhead =>
    rw [evalStage_of_spells _ _ hspells, Command.overrides_eq hlists, requestsOf_singleton]
    exact (Asks.pure _ s).bind_quiet (asks_of_evalNode hhead).bind_error.bind_error
  | unresolved hspells hlists hhead hprogram =>
    rw [evalStage_of_spells _ _ hspells, Command.overrides_eq hlists, requestsOf_singleton,
      ← List.append_nil (requests ..)]
    have hname := (asks_of_evalNode hhead).map (g := Node.plain)
    have hpath := Asks.programPath (programPath_of_none hprogram)
    exact (Asks.pure _ s).bind_quiet (hname.bind hpath.bind_error)
  | resolved hspells hlists hhead hprogram hargs =>
    rw [evalStage_of_spells _ _ hspells, Command.overrides_eq hlists]
    -- The requests of the head come first, and finding the program makes none.
    have hname := (asks_of_evalNode hhead).map (g := Node.plain)
    have hpath := Asks.programPath (programPath_of_some hprogram)
    exact (Asks.pure _ s).bind_quiet (hname.bind (hpath.bind_quiet hargs.asks.map))

theorem BuildsAll.asks {stages : List Stage} {r : Except Halt (List Command)}
    (h : BuildsAll setup (setup.within budget room) s stages steps r s') :
    Asks (buildStages setup.recorded (setup.recorded.within budget room) stages) s r s'
      (requestsOf setup budget room steps) := by
  induction h with
  | nil => exact .pure [] _
  | noStage => exact (Asks.fail _ _).bind_error
  | halts hstage => exact (Asks.pure _ _).bind_quiet hstage.asks.bind_error
  | next hstage _ ih =>
    rw [requestsOf, List.flatMap_append]
    exact (Asks.pure _ _).bind_quiet (hstage.asks.bind ih.map)

end Soundness

/-! ## Operands in order -/

/-- What was evaluated of some operands: the first of them, and all if nothing failed. -/
structure Covers (steps : List (Step σ)) (operands : List Node) (r : Except Halt α) : Prop where
  first : steps.map Step.node <+: operands
  all {a : α} : r = .ok a → steps.map Step.node = operands

namespace Covers

variable {β : Type} {steps more : List (Step σ)} {operands others : List Node}

theorem halted {e : Halt} (h : steps.map Step.node <+: operands) :
    Covers steps operands (.error e : Except Halt α) := by
  refine ⟨h, fun h => ?_⟩
  cases h

/-- Operands that come after those already evaluated. -/
theorem after {r : Except Halt α} (h : steps.map Step.node = operands)
    (hmore : Covers more others r) (f : α → β) :
    Covers (steps ++ more) (operands ++ others) (r.map f) := by
  refine ⟨?_, fun {b} hr => ?_⟩
  · rw [List.map_append, h]
    exact (List.prefix_append_right_inj _).2 hmore.first
  · cases r with
    | error e => cases hr
    | ok a => rw [List.map_append, h, hmore.all rfl]

theorem step {r : Except Halt α} (n : Node) (s : State σ) (hmore : Covers more others r)
    (f : α → β) : Covers (⟨n, s⟩ :: more) (n :: others) (r.map f) := by
  have hn : [(⟨n, s⟩ : Step σ)].map Step.node = [n] := rfl
  exact after hn hmore f

end Covers

theorem EvaluatesAll.covers {setup : Setup σ} {re : Reentry σ} {s s' : State σ} {args : List Node}
    {steps : List (Step σ)} {r : Except Halt (List Node)}
    (h : EvaluatesAll setup re s args steps r s') : Covers steps args r := by
  induction h with
  | nil => exact ⟨List.prefix_rfl, fun _ => rfl⟩
  | halts => exact .halted (by simp)
  | next _ _ ih => exact ih.step _ _ _

/-- The operands of a stage: what comes after its lists of variables. -/
def stageOperands : Stage → List Node
  | .ok items => items.dropWhile Node.isData
  | .error _ => []

theorem Spells.operands {items lists args : List Node} {head : Node}
    (h : Spells items lists head args) : stageOperands (.ok items) = head :: args := by
  rw [stageOperands, h.items_eq, List.dropWhile_append_of_pos h.data,
    List.dropWhile_cons_of_neg (by rw [h.head_not_data]; decide)]

theorem BuildsStage.covers {setup : Setup σ} {re : Reentry σ} {s s' : State σ} {items : List Node}
    {steps : List (Step σ)} {r : Except Halt Command}
    (h : BuildsStage setup re s items steps r s') : Covers steps (stageOperands (.ok items)) r := by
  cases h with
  | noProgram | badOverrides => exact .halted List.nil_prefix
  | headHalts hspells | unresolved hspells =>
    rw [hspells.operands]
    exact .halted (by simp)
  | resolved hspells _ _ _ hargs =>
    rw [hspells.operands]
    exact hargs.covers.step _ _ _

theorem BuildsAll.covers {setup : Setup σ} {re : Reentry σ} {s s' : State σ}
    {stages : List Stage} {steps : List (Step σ)}
    {r : Except Halt (List Command)} (h : BuildsAll setup re s stages steps r s') :
    Covers steps (stages.flatMap stageOperands) r := by
  induction h with
  | nil => exact ⟨List.prefix_rfl, fun _ => rfl⟩
  | noStage => exact .halted List.nil_prefix
  | halts hstage =>
    rw [List.flatMap_cons]
    exact .halted (hstage.covers.first.trans (List.prefix_append _ _))
  | next hstage _ ih =>
    rw [List.flatMap_cons]
    exact ih.after (hstage.covers.all rfl) _

end Eval

end ExprShell
