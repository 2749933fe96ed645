/-
The interactive loop as top-level evaluations (`Repl.run_eq_replay`). The lines can be cut, without
evaluating anything, into blank lines and submissions, each the fewest lines that are not
incomplete; the loop evaluates each submission once, as a text of its own.

The loop reads its buffer anew after each line. What carries the proof is the loop in the middle of
a submission: its buffer holds the lines so far, its state is the one before them with so many
prompts, and one more line either leaves it like that or ends the submission (`feed_asked`).
-/
import ExprShell.Proofs.Session.Submissions
import ExprShell.Repl

namespace ExprShell

variable {σ : Type}

/-- The text is no program, and might be one with more lines. -/
def Setup.isIncomplete (setup : Setup σ) (text : String) : Bool :=
  match setup.read text with
  | .error f => f.isIncomplete
  | .ok _ => false

namespace Repl

/-! ## Cutting lines -/

def joined (lines : List String) : String :=
  "\n".intercalate lines

/-- The line, if it is the first one, starts a submission. -/
def Starts (line : String) : Prop :=
  Text.trim line ≠ "" ∧ Text.trim line ≠ "exit" ∧ Text.trim line ≠ "quit"

/-- The lines start a submission and do not end it, wherever one stops. -/
structure Waits (setup : Setup σ) (lines : List String) : Prop where
  starts : ∀ line ∈ lines.head?, Starts line
  incomplete : ∀ front, front ≠ [] → front <+: lines → setup.isIncomplete (joined front) = true

/-- A stretch of the input. -/
inductive Part where
  /-- A line that is passed over. -/
  | blank (line : String)
  /-- A submission, with the line that completes it. -/
  | group (waiting : List String) (last : String)

def Part.lines : Part → List String
  | blank line => [line]
  | group waiting last => waiting ++ [last]

/-- Of a submission, no fewer lines are complete. -/
def Part.IsCut (setup : Setup σ) : Part → Prop
  | blank line => Text.trim line = ""
  | group waiting last => Waits setup waiting ∧ (waiting = [] → Starts last) ∧
    setup.isIncomplete (joined (waiting ++ [last])) = false

/-- How the input ends. -/
inductive Ending where
  /-- With a submission that is never complete, or between submissions if this is empty. -/
  | input (waiting : List String)
  /-- With a line that leaves the loop; what follows is not read. -/
  | quit (line : String) (unread : List String)

def Ending.lines : Ending → List String
  | input waiting => waiting
  | quit line unread => line :: unread

def Ending.IsCut (setup : Setup σ) : Ending → Prop
  | input waiting => Waits setup waiting
  | quit line _ => Text.trim line = "exit" ∨ Text.trim line = "quit"

/-- The lines are these parts, one after the other, and this ending. -/
structure Cuts (setup : Setup σ) (lines : List String) (parts : List Part) (ending : Ending) :
    Prop where
  lines_eq : lines = parts.flatMap Part.lines ++ ending.lines
  parts : ∀ part ∈ parts, part.IsCut setup
  ending : ending.IsCut setup

section Existence

variable {setup : Setup σ} {waiting : List String}

theorem waits_nil (setup : Setup σ) : Waits setup [] where
  starts _ h := by cases h
  incomplete front hne hprefix := absurd (List.prefix_nil.1 hprefix) hne

/-- One more line that does not complete the submission. -/
theorem Waits.concat (h : Waits setup waiting) {line : String} (hstarts : waiting = [] → Starts line)
    (hline : setup.isIncomplete (joined (waiting ++ [line])) = true) :
    Waits setup (waiting ++ [line]) where
  starts := by
    cases waiting with
    | nil => simpa using hstarts rfl
    | cons first more => exact h.starts
  incomplete := by
    intro front hne hprefix
    obtain heq | hprefix := List.prefix_concat_iff.1 hprefix
    · rw [heq]
      exact hline
    · exact h.incomplete front hne hprefix

/-- Lines that go on with a submission complete it somewhere, or do not complete it. -/
theorem Waits.search (h : Waits setup waiting) (lines : List String)
    (hstarts : waiting = [] → ∀ line ∈ lines.head?, Starts line) :
    Waits setup (waiting ++ lines) ∨
      ∃ more last rest, lines = more ++ last :: rest ∧
        (Part.group (waiting ++ more) last).IsCut setup := by
  induction lines generalizing waiting with
  | nil =>
    left
    rw [List.append_nil]
    exact h
  | cons line rest ih =>
    have hline : waiting = [] → Starts line := fun hnil => hstarts hnil line rfl
    cases hincomplete : setup.isIncomplete (joined (waiting ++ [line])) with
    | false =>
      refine .inr ⟨[], line, rest, rfl, ?_⟩
      rw [List.append_nil]
      exact ⟨h, hline, hincomplete⟩
    | true =>
      have hnext := ih (h.concat hline hincomplete) fun hnil => by simp at hnil
      rw [List.append_assoc, List.singleton_append] at hnext
      obtain hwaits | ⟨more, last, after, rfl, hcut⟩ := hnext
      · exact .inl hwaits
      · rw [List.append_assoc, List.singleton_append] at hcut
        exact .inr ⟨line :: more, last, after, rfl, hcut⟩

theorem Cuts.cons {lines : List String} {part : Part} {parts : List Part} {ending : Ending}
    (hpart : part.IsCut setup) (h : Cuts setup lines parts ending) :
    Cuts setup (part.lines ++ lines) (part :: parts) ending where
  lines_eq := by rw [h.lines_eq, List.flatMap_cons, List.append_assoc]
  parts := List.forall_mem_cons.2 ⟨hpart, h.parts⟩
  ending := h.ending

/-- All lines can be cut. -/
theorem exists_cuts (setup : Setup σ) (lines : List String) :
    ∃ parts ending, Cuts setup lines parts ending := by
  -- On the number of lines: a submission takes up at least one of them.
  induction hlength : lines.length using Nat.strongRecOn generalizing lines with
  | ind n ih =>
    subst hlength
    cases lines with
    | nil => exact ⟨[], .input [], rfl, List.forall_mem_nil _, waits_nil setup⟩
    | cons line rest =>
      by_cases hblank : Text.trim line = ""
      · obtain ⟨parts, ending, h⟩ := ih rest.length (Nat.lt_succ_self _) rest rfl
        have hpart : (Part.blank line).IsCut setup := hblank
        exact ⟨_, ending, h.cons hpart⟩
      by_cases hquit : Text.trim line = "exit" ∨ Text.trim line = "quit"
      · exact ⟨[], .quit line rest, rfl, List.forall_mem_nil _, hquit⟩
      have hstarts : Starts line := ⟨hblank, not_or.1 hquit⟩
      obtain hwaits | ⟨more, last, after, hlines, hcut⟩ := (waits_nil setup).search (line :: rest)
        fun _ _ hhead => by cases hhead; exact hstarts
      · exact ⟨[], .input (line :: rest), rfl, List.forall_mem_nil _, hwaits⟩
      · have hafter : after.length < (line :: rest).length := by
          rw [hlines]
          simp only [List.length_append, List.length_cons]
          omega
        obtain ⟨parts, ending, h⟩ := ih after.length hafter after rfl
        refine ⟨.group more last :: parts, ending, ?_⟩
        rw [hlines, List.append_cons]
        exact h.cons hcut

end Existence

/-! ## Replaying submissions -/

/-- The state after so many prompts of one submission. -/
def asked (host : Host σ) (s : State σ) : Nat → State σ
  | 0 => s
  | count + 1 =>
    (asked host s count).tell host (if count = 0 then prompt else continuationPrompt)

/-- What is shown of the outcome of a submission. -/
def report (host : Host σ) (s : State σ) : Except Halt Node → State σ
  | .ok n => s.echo host n
  | .error (.fault f) => s.warn host (Report.fault f)
  | .error _ => s.warn host Report.cutOff

/-- The status and the state where the input ends. -/
def close (host : Host σ) (s : State σ) : Ending → Nat × State σ
  | .input waiting => (0, (asked host s (waiting.length + 1)).tell host "\n")
  | .quit .. => (0, (asked host s 1).tell host "\n")

/-- Each submission evaluated once, in order, as a text of its own, with the prompts for its lines
before it and its outcome shown after it, up to one that exits. -/
def replay (setup : Setup σ) (ending : Ending) : List Part → State σ → Nat × State σ
  | [], s => close setup.host s ending
  | .blank _ :: parts, s => replay setup ending parts (asked setup.host s 1)
  | .group waiting last :: parts, s =>
    match Session.evaluate setup (joined (waiting ++ [last]))
      (asked setup.host s (waiting.length + 1)) with
    | (.error (.exit status), s) => (exitStatus status, s)
    | (r, s) => replay setup ending parts (report setup.host s r)

/-! ## The loop inside a submission -/

theorem joined_concat {lines : List String} (h : lines ≠ []) (line : String) :
    joined (lines ++ [line]) = joined lines ++ "\n" ++ line := by
  unfold joined
  rw [String.intercalate_append_of_ne_nil h (List.cons_ne_nil _ _), String.intercalate_singleton]

theorem isEmpty_joined {lines : List String} (h : ∀ line ∈ lines.head?, Starts line) :
    (joined lines).isEmpty = lines.isEmpty := by
  cases lines with
  | nil => rfl
  | cons first rest =>
    have hfirst : first ≠ "" := by
      rintro rfl
      exact (h "" rfl).1 rfl
    have hjoined : joined (first :: rest) ≠ "" := by
      cases rest with
      | nil => simpa [joined] using hfirst
      | cons next others => simp [joined, String.intercalate_cons_cons]
    simpa using hjoined

/-- The first line of a submission is asked for with one prompt, all others with the other. -/
theorem ask_asked (setup : Setup σ) (s : State σ) {waiting : List String}
    (h : ∀ first ∈ waiting.head?, Starts first) :
    ask setup ⟨joined waiting, asked setup.host s waiting.length⟩ =
      ⟨joined waiting, asked setup.host s (waiting.length + 1)⟩ := by
  unfold ask
  rw [asked]
  simp only [isEmpty_joined h, List.isEmpty_iff_length_eq_zero]

/-- One more line in the middle of a submission. -/
theorem feed_asked (setup : Setup σ) (s : State σ) {waiting : List String} {line : String}
    (h : ∀ first ∈ waiting.head?, Starts first) (hline : waiting = [] → Starts line) :
    (ask setup ⟨joined waiting, asked setup.host s waiting.length⟩).feed setup line =
      finish setup (joined (waiting ++ [line])) (asked setup.host s (waiting.length + 1)) := by
  rw [ask_asked setup s h]
  unfold feed
  simp only [isEmpty_joined h]
  cases waiting with
  | nil =>
    obtain ⟨hblank, hexit, hquit⟩ := hline rfl
    simp only [List.isEmpty_nil, if_true]
    rfl
  | cons first rest =>
    simp only [List.isEmpty_cons, Bool.false_eq_true, if_false]
    rw [joined_concat (List.cons_ne_nil _ _)]

theorem submit_of_incomplete {setup : Setup σ} {text : String}
    (h : setup.isIncomplete text = true) (s : State σ) : submit setup text s = (none, s) := by
  unfold Setup.isIncomplete at h
  unfold submit
  cases hread : setup.read text with
  | error f =>
    rw [hread] at h
    exact if_pos h
  | ok program =>
    rw [hread] at h
    cases h

/-- At rest, a text that needs no more lines is submitted as a top-level evaluation. -/
theorem submit_of_complete {setup : Setup σ} {text : String} {s : State σ}
    (h : setup.isIncomplete text = false) (hs : Session.AtRest s.env) :
    submit setup text s =
      (some (Session.evaluate setup text s).1, (Session.evaluate setup text s).2) := by
  unfold Setup.isIncomplete at h
  unfold submit
  cases hread : setup.read text with
  | error f =>
    rw [hread] at h
    rw [Session.evaluate_of_unreadable setup s hread, Session.reset_of_atRest hs]
    exact if_neg (by simpa using h)
  | ok program =>
    rw [Session.evaluate_of_read setup s hread]

/-! ## The loop over submissions -/

@[simp] theorem env_asked (host : Host σ) (s : State σ) (count : Nat) :
    (asked host s count).env = s.env := by
  induction count with
  | zero => rfl
  | succ count ih => exact ih

@[simp] theorem env_report (host : Host σ) (s : State σ) (r : Except Halt Node) :
    (report host s r).env = s.env := by
  unfold report
  split
  · unfold State.echo
    split
    · rfl
    · rfl
  · rfl
  · rfl

/-- Lines that do not complete a submission gather in the buffer and change nothing else. -/
theorem run_waiting {setup : Setup σ} (s : State σ) (waiting : List String) {more : List String}
    (h : Waits setup (waiting ++ more)) (rest : List (Option String)) :
    run setup ⟨joined waiting, asked setup.host s waiting.length⟩ (more.map some ++ rest) =
      run setup ⟨joined (waiting ++ more), asked setup.host s (waiting ++ more).length⟩ rest := by
  induction more generalizing waiting with
  | nil => simp
  | cons line more ih =>
    have hwaiting : ∀ first ∈ waiting.head?, Starts first := by
      intro first hfirst
      refine h.starts first ?_
      rw [List.head?_append, hfirst]
      rfl
    have hline : waiting = [] → Starts line := by
      rintro rfl
      exact h.starts line rfl
    rw [List.append_cons] at h ⊢
    have hincomplete : setup.isIncomplete (joined (waiting ++ [line])) = true :=
      h.incomplete _ (by simp) (List.prefix_append _ _)
    have hlength : waiting.length + 1 = (waiting ++ [line]).length := by simp
    rw [List.map_cons, List.cons_append, run, feed_asked setup s hwaiting hline, finish,
      submit_of_incomplete hincomplete, hlength]
    exact ih (waiting ++ [line]) h

/-- A submission is evaluated once it is complete. -/
theorem run_group {setup : Setup σ} {s : State σ} (hs : Session.AtRest s.env)
    {waiting : List String} {last : String} (h : (Part.group waiting last).IsCut setup)
    (rest : List (Option String)) :
    run setup { state := s } ((waiting ++ [last]).map some ++ rest) =
      match Session.evaluate setup (joined (waiting ++ [last]))
        (asked setup.host s (waiting.length + 1)) with
      | (.error (.exit status), s) => (exitStatus status, s)
      | (r, s) => run setup { state := report setup.host s r } rest := by
  obtain ⟨hwaits, hlast, hcomplete⟩ := h
  have hgathered := run_waiting s [] hwaits (some last :: rest)
  have hrest : Session.AtRest (asked setup.host s (waiting.length + 1)).env := by
    rw [env_asked]
    exact hs
  rw [List.map_append, List.append_assoc]
  refine hgathered.trans ?_
  rw [List.nil_append, run, feed_asked setup s hwaits.starts hlast, finish,
    submit_of_complete hcomplete hrest]
  cases Session.evaluate setup (joined (waiting ++ [last]))
      (asked setup.host s (waiting.length + 1)) with
  | mk r t =>
    rcases r with (f | status | _ | _) | n
    all_goals rfl

theorem run_blank (setup : Setup σ) (s : State σ) {line : String} (h : Text.trim line = "")
    (rest : List (Option String)) :
    run setup { state := s } (some line :: rest) =
      run setup { state := asked setup.host s 1 } rest := by
  have hfeed : (ask setup { state := s }).feed setup line =
      .more { state := asked setup.host s 1 } := by
    unfold feed
    rw [h]
    rfl
  rw [run, hfeed]

theorem run_ending (setup : Setup σ) (s : State σ) {ending : Ending} (h : ending.IsCut setup) :
    run setup { state := s } (ending.lines.map some) = close setup.host s ending := by
  cases ending with
  | input waiting =>
    have hgathered := run_waiting s [] h []
    rw [List.append_nil] at hgathered
    refine hgathered.trans ?_
    rw [List.nil_append, run, ask_asked setup s h.starts]
    rfl
  | quit line unread =>
    have hfeed : (ask setup { state := s }).feed setup line = .quit (asked setup.host s 1) := by
      unfold feed
      obtain hexit | hquit := h
      · rw [hexit]
        rfl
      · rw [hquit]
        rfl
    rw [Ending.lines, List.map_cons, run, hfeed]
    rfl

theorem run_of_cuts {setup : Setup σ} {lines : List String} {parts : List Part} {ending : Ending}
    (h : Cuts setup lines parts ending) {s : State σ} (hs : Session.AtRest s.env) :
    run setup { state := s } (lines.map some) = replay setup ending parts s := by
  obtain ⟨rfl, hparts, hending⟩ := h
  induction parts generalizing s with
  | nil => exact run_ending setup s hending
  | cons part parts ih =>
    obtain ⟨hpart, hothers⟩ := List.forall_mem_cons.1 hparts
    rw [List.flatMap_cons, List.append_assoc, List.map_append]
    cases part with
    | blank line =>
      have hnext : Session.AtRest (asked setup.host s 1).env := by
        rw [env_asked]
        exact hs
      exact (run_blank setup s hpart _).trans (ih hnext hothers)
    | group waiting last =>
      refine (run_group hs hpart _).trans ?_
      rw [replay]
      have hafter := (Session.perform_step setup (asked setup.host s (waiting.length + 1))
        (.source (joined (waiting ++ [last])))).1
      rw [Session.perform] at hafter
      cases houtcome : Session.evaluate setup (joined (waiting ++ [last]))
          (asked setup.host s (waiting.length + 1)) with
      | mk r t =>
        rw [houtcome] at hafter
        have hnext : Session.AtRest (report setup.host t r).env := by
          rw [env_report]
          exact hafter
        rcases r with (f | status | _ | _) | n
        case error.exit => rfl
        all_goals exact ih hnext hothers

/-- **The interactive loop evaluates every submission exactly once.** Lines can be cut into blank
lines and submissions, each the fewest lines that are not incomplete, up to the end of the input,
a submission that is never complete, or a line that leaves the loop. However they are cut so, the
loop of a new session ends with the status and in the state, all output included, of evaluating
each submission once, in order, as a text of its own. To ask for more lines changes nothing. -/
theorem run_eq_replay (setup : Setup σ) (host : σ) (lines : List String) :
    (∃ parts ending, Cuts setup lines parts ending) ∧
    (∀ parts ending, Cuts setup lines parts ending →
      run setup { state := Session.start host } (lines.map some) =
        replay setup ending parts (Session.start host)) ∧
    ∀ text s, setup.isIncomplete text = true → submit setup text s = (none, s) :=
  ⟨exists_cuts setup lines, fun _ _ h => run_of_cuts h ⟨rfl, rfl, rfl⟩,
    fun _ s h => submit_of_incomplete h s⟩

end Repl

end ExprShell
