/-
Places in a source text, and layouts. Strings and comments are told from the text alone: one opens
at a double quote, or at a `#` that no name goes on with, unless an earlier one goes on there
(`Opens`). Tokens account for a text if they stand at places of their own, each the longest lexeme
there and on the line of that place, strings among them, and between them are nothing but comments
and blanks outside strings (`Accounted`).

A text that is laid out as blanks, comments and lexemes is accounted for by its lexemes
(`Layout.accounted`): no string or comment goes on from one piece into the next (`Layout.clear`),
and within a piece one can open only at its beginning (`Piece.opens_or_plain`).
-/
import Mathlib.Data.List.Forall2
import ExprShell.Proofs.Token.Lexeme

namespace ExprShell

/-- Blanks between tokens. -/
def Scanner.isBlank (c : Char) : Bool :=
  c == ' ' || c == '\t' || c == '\r' || c == '\n'

/-- The number of line breaks in a text. -/
def lineBreaks (text : List Char) : Nat :=
  text.count '\n'

/-! ## Places in a source -/

/-- A stretch of a source, from a position up to, but not including, another one. -/
structure Span where
  start : Nat
  stop : Nat
  deriving DecidableEq, Repr

namespace Span

def Covers (s : Span) (i : Nat) : Prop :=
  s.start ≤ i ∧ i < s.stop

def text (source : List Char) (s : Span) : List Char :=
  (source.drop s.start).take (s.stop - s.start)

end Span

/-- The token is what stands at a place of the source, the longest lexeme there, on the line of
that place. -/
structure Token.StandsAt (source : List Char) (t : Token) (s : Span) : Prop where
  nonempty : s.start < s.stop
  within : s.stop ≤ source.length
  text : t.text.toList = s.text source
  lexeme : IsLexeme (s.text source)
  longest : ∀ stop, s.stop < stop → stop ≤ source.length →
    ¬ IsLexeme (Span.text source ⟨s.start, stop⟩)
  line : t.line = 1 + lineBreaks (source.take s.start)

/-! ## Strings and comments of a source -/

/-- The first position from the given one on at which the character stands, or the end of the
source. -/
def nextOf (c : Char) (source : List Char) (i : Nat) : Nat :=
  i + ((source.drop i).takeWhile (· != c)).length

/-- The position behind the double quote that ends a string. -/
def stringEnd (source : List Char) (i : Nat) : Nat :=
  nextOf '"' source (i + 1) + 1

/-- The position of the next line break, or the end of the source. -/
def lineEnd (source : List Char) (i : Nat) : Nat :=
  nextOf '\n' source i

/-- Where the string or comment ends that opens at a position. -/
def regionEnd (source : List Char) (i : Nat) : Nat :=
  if source[i]? = some '"' then stringEnd source i else lineEnd source i

/-- A double quote, or a `#` that no name goes on with. -/
def CanOpen (source : List Char) (i : Nat) : Prop :=
  source[i]? = some '"' ∨ source[i]? = some '#' ∧ WordEnded (source.take i)

/-- A string or comment opens at the position, none that opens before going on there. -/
def Opens (source : List Char) (i : Nat) : Prop :=
  CanOpen source i ∧ ∀ k, k < i → Opens source k → regionEnd source k ≤ i
termination_by i

/-- No string or comment that opens before the position goes on there. -/
def Clear (source : List Char) (i : Nat) : Prop :=
  ∀ k, k < i → Opens source k → regionEnd source k ≤ i

/-- A string stands at the place, its double quotes included. -/
def StringAt (source : List Char) (s : Span) : Prop :=
  source[s.start]? = some '"' ∧ Opens source s.start ∧ s.stop = stringEnd source s.start

/-- A comment stands at the place: a `#` and all that follows it on its line. -/
def CommentAt (source : List Char) (s : Span) : Prop :=
  source[s.start]? = some '#' ∧ Opens source s.start ∧ s.stop = lineEnd source s.start

def InString (source : List Char) (i : Nat) : Prop :=
  ∃ s, StringAt source s ∧ s.Covers i

def InComment (source : List Char) (i : Nat) : Prop :=
  ∃ s, CommentAt source s ∧ s.Covers i

/-- The tokens stand in the source at the spans, in order and without overlap. A string is one
of them, none is in a comment, and everything else is a blank outside strings or part of a
comment. -/
structure Accounted (source : List Char) (tokens : List Token) (spans : List Span) : Prop where
  placed : List.Forall₂ (Token.StandsAt source) tokens spans
  increasing : spans.Pairwise fun a b => a.stop ≤ b.start
  strings : ∀ s, StringAt source s → s ∈ spans
  comments : ∀ i, InComment source i → ∀ s ∈ spans, ¬ s.Covers i
  skipped : ∀ i c, source[i]? = some c → (∀ s ∈ spans, ¬ s.Covers i) →
    (Scanner.isBlank c = true ∧ ¬ InString source i) ∨ InComment source i

section Opening

variable {source before after body : List Char} {n m k : Nat} {c : Char}

theorem opens_iff : Opens source n ↔ CanOpen source n ∧ Clear source n := by
  rw [Opens]
  rfl

theorem clear_zero (source : List Char) : Clear source 0 :=
  fun k hk => absurd hk (Nat.not_lt_zero k)

theorem le_regionEnd (source : List Char) (n : Nat) : n ≤ regionEnd source n := by
  unfold regionEnd stringEnd lineEnd nextOf
  split <;> omega

theorem regionEnd_of_quote (h : source[n]? = some '"') : regionEnd source n = stringEnd source n :=
  if_pos h

theorem regionEnd_of_hash (h : source[n]? = some '#') : regionEnd source n = lineEnd source n :=
  if_neg (by simp [h])

/-- Where nothing opens, one may go on. -/
theorem Clear.skip (h : Clear source n) (hle : n ≤ m)
    (hplain : ∀ j, n ≤ j → j < m → ¬ CanOpen source j) : Clear source m := by
  intro k hk hopens
  by_cases hkn : k < n
  · exact Nat.le_trans (h k hkn hopens) hle
  · exact absurd (opens_iff.1 hopens).1 (hplain k (by omega) hk)

/-- Nothing opens inside of what is open. -/
theorem Opens.eq_of_within (h : Opens source n) (hk : Opens source k) (hle : n ≤ k)
    (hlt : k < regionEnd source n) : k = n := by
  by_contra hne
  have := (opens_iff.1 hk).2 n (by omega) h
  omega

/-- Behind what opens, one may go on. -/
theorem Clear.pass (h : Clear source n) (hopen : CanOpen source n) :
    Clear source (regionEnd source n) := by
  intro k hk hopens
  have hle := le_regionEnd source n
  by_cases hkn : k < n
  · exact Nat.le_trans (h k hkn hopens) hle
  · have hsame := (opens_iff.2 ⟨hopen, h⟩).eq_of_within hopens (by omega) hk
    exact Nat.le_of_eq (by rw [hsame])

/-- In `"a # b" # c` the first `#` is in a string, and the second one opens a comment. -/
example : InString "\"a # b\" # c".toList 3 ∧ CommentAt "\"a # b\" # c".toList ⟨8, 11⟩ := by
  have hquote : CanOpen "\"a # b\" # c".toList 0 := .inl rfl
  have hblank : ¬ CanOpen "\"a # b\" # c".toList 7 := by simp [CanOpen]
  have hended : WordEnded ("\"a # b\" # c".toList.take 8) := by simp [WordEnded, reserved]
  -- The string ends at position 7, from where one may go on over the space.
  have hclear : Clear "\"a # b\" # c".toList 8 := by
    refine ((clear_zero _).pass hquote).skip (by decide) fun j hj hj' => ?_
    obtain rfl : j = 7 := Nat.le_antisymm (Nat.le_of_lt_succ hj') hj
    exact hblank
  constructor
  · exact ⟨⟨0, 7⟩, ⟨rfl, opens_iff.2 ⟨hquote, clear_zero _⟩, rfl⟩, by decide, by decide⟩
  · exact ⟨rfl, opens_iff.2 ⟨.inr ⟨rfl, hended⟩, hclear⟩, rfl⟩

theorem canOpen_iff : CanOpen (before ++ c :: after) before.length ↔
    c = '"' ∨ c = '#' ∧ WordEnded before := by
  simp [CanOpen]

theorem nextOf_append (hbody : c ∉ body) (hafter : ∀ d, after.head? = some d → d = c) :
    nextOf c (before ++ (body ++ after)) before.length = before.length + body.length := by
  have hall : ∀ d ∈ body, (d != c) = true := by
    intro d hd
    rw [bne_iff_ne]
    intro heq
    exact hbody (heq ▸ hd)
  have hstop : after.takeWhile (· != c) = [] := by
    cases after with
    | nil => rfl
    | cons d rest => simp [hafter d rfl]
  unfold nextOf
  rw [List.drop_left, List.takeWhile_append_of_pos hall, hstop, List.append_nil]

theorem regionEnd_string (hbody : '"' ∉ body) :
    regionEnd (before ++ ('"' :: body ++ ['"'] ++ after)) before.length =
      before.length + ('"' :: body ++ ['"']).length := by
  have hsource : before ++ ('"' :: body ++ ['"'] ++ after) =
      (before ++ ['"']) ++ (body ++ '"' :: after) := by simp
  have hnext : nextOf '"' ((before ++ ['"']) ++ (body ++ '"' :: after)) (before.length + 1) =
      before.length + 1 + body.length := by
    have hlength : before.length + 1 = (before ++ ['"']).length := by simp
    rw [hlength]
    exact nextOf_append hbody (by simp)
  have hopen : ((before ++ ['"']) ++ (body ++ '"' :: after))[before.length]? = some '"' := by simp
  rw [hsource, regionEnd_of_quote hopen, stringEnd, hnext]
  simp only [List.length_append, List.length_cons, List.length_nil]
  omega

theorem regionEnd_comment (hbody : '\n' ∉ body) (hafter : ∀ d, after.head? = some d → d = '\n') :
    regionEnd (before ++ ('#' :: body ++ after)) before.length =
      before.length + ('#' :: body).length := by
  have hopen : (before ++ ('#' :: body ++ after))[before.length]? = some '#' := by simp
  rw [regionEnd_of_hash hopen, lineEnd, nextOf_append ?_ hafter]
  simp [hbody]

end Opening

namespace Accounted

variable {source : List Char} {tokens : List Token} {spans : List Span}

/-- A source that starts with neither a blank nor a comment starts with a token. -/
theorem exists_first (h : Accounted source tokens spans) {c : Char}
    (hc : source.head? = some c) (hblank : Scanner.isBlank c = false)
    (hcomment : c ≠ '#') :
    ∃ t rest stop, tokens = t :: rest ∧ t.StandsAt source ⟨0, stop⟩ := by
  rw [List.head?_eq_getElem?] at hc
  obtain ⟨s, hs, hcovers⟩ : ∃ s ∈ spans, s.Covers 0 := by
    by_contra hnone
    obtain ⟨heq, -⟩ | ⟨r, ⟨hhash, -⟩, hstart, -⟩ :=
      h.skipped 0 c hc fun s hs hcovers => hnone ⟨s, hs, hcovers⟩
    · rw [hblank] at heq
      cases heq
    · rw [Nat.le_zero.1 hstart, hc] at hhash
      exact hcomment (Option.some.inj hhash)
  have hplaced := h.placed
  have hincreasing := h.increasing
  cases hplaced with
  | nil => cases hs
  | @cons t first rest others hfirst _ =>
    -- No place comes before the one that covers the first position.
    have hstart : first.start = 0 := by
      obtain rfl | hs := List.mem_cons.1 hs
      · exact Nat.le_zero.1 hcovers.1
      · have hle := (List.pairwise_cons.1 hincreasing).1 s hs
        have hlt := hfirst.nonempty
        have hzero := hcovers.1
        omega
    exact ⟨t, rest, first.stop, rfl, hstart ▸ hfirst⟩

/-- A string is not cut at a blank inside of it. -/
example : ¬ Accounted "\"a  b\"".toList [⟨"\"a", 1⟩, ⟨"b\"", 1⟩] spans := by
  intro h
  have hmem : ⟨0, 6⟩ ∈ spans := h.strings _ ⟨rfl, opens_iff.2 ⟨.inl rfl, clear_zero _⟩, rfl⟩
  obtain ⟨a, others, hfirst, hothers, rfl⟩ := List.forall₂_cons_left_iff.1 h.placed
  obtain ⟨b, rest, hsecond, hrest, rfl⟩ := List.forall₂_cons_left_iff.1 hothers
  obtain rfl := List.forall₂_nil_left_iff.1 hrest
  simp only [List.mem_cons, List.not_mem_nil, or_false] at hmem
  rcases hmem with rfl | rfl
  · exact absurd hfirst.text (by decide)
  · exact absurd hsecond.text (by decide)

end Accounted

/-! ## Layouts -/

/-- A part of a source. -/
inductive Piece where
  | blank (c : Char)
  /-- A `#` and the rest of its line. -/
  | comment (body : List Char)
  | lexeme (text : List Char)

namespace Piece

def chars : Piece → List Char
  | blank c => [c]
  | comment body => '#' :: body
  | lexeme text => text

/-- What a piece has to be, between the text before it and the text after it. -/
def IsValid (before after : List Char) : Piece → Prop
  | blank c => Scanner.isBlank c = true
  | comment body =>
    '\n' ∉ body ∧ WordEnded before ∧ ∀ c, after.head? = some c → c = '\n'
  | lexeme text => IsLexeme text ∧ IsLongest text after

/-- The token of a piece that starts on a line. -/
def tokens (line : Nat) : Piece → List Token
  | lexeme text => [⟨String.ofList text, line⟩]
  | blank _ | comment _ => []

/-- The place of the token of a piece that starts at a position. -/
def spans (offset : Nat) : Piece → List Span
  | lexeme text => [⟨offset, offset + text.length⟩]
  | blank _ | comment _ => []

@[simp] theorem reverse_tokens (line : Nat) (p : Piece) :
    (p.tokens line).reverse = p.tokens line := by
  cases p with
  | _ => rfl

end Piece

/-- Wherever the text stands, no string or comment opens in it. -/
def IsPlain (text : List Char) : Prop :=
  ∀ before after j, before.length ≤ j → j < before.length + text.length →
    ¬ CanOpen (before ++ (text ++ after)) j

theorem isPlain_of_split {text : List Char}
    (h : ∀ front c back, text = front ++ c :: back →
      c ≠ '"' ∧ (c = '#' → ∃ init d, front = init ++ [d] ∧ d ∉ reserved)) : IsPlain text := by
  intro before after j hj hj' hopen
  obtain ⟨m, rfl⟩ := Nat.exists_eq_add_of_le hj
  have hm : m < text.length := by omega
  obtain ⟨front, c, back, rfl, rfl⟩ :
      ∃ front c back, text = front ++ c :: back ∧ m = front.length :=
    ⟨text.take m, text[m], text.drop (m + 1), by simp, by rw [List.length_take]; omega⟩
  obtain ⟨hquote, hcomment⟩ := h front c back rfl
  have hsource : before ++ (front ++ c :: back ++ after) =
      (before ++ front) ++ c :: (back ++ after) := by simp
  rw [hsource, ← List.length_append, canOpen_iff] at hopen
  obtain heq | ⟨heq, hended⟩ := hopen
  · exact hquote heq
  · obtain ⟨init, d, rfl, hd⟩ := hcomment heq
    exact hd (hended d (by simp))

theorem isPlain_of_forall {text : List Char} (h : ∀ c ∈ text, c ≠ '"' ∧ c ≠ '#') :
    IsPlain text := by
  refine isPlain_of_split fun front c back htext => ?_
  obtain ⟨hquote, hcomment⟩ := h c (by simp [htext])
  exact ⟨hquote, fun heq => absurd heq hcomment⟩

theorem isPlain_of_isBlank {c : Char} (h : Scanner.isBlank c = true) : IsPlain [c] := by
  refine isPlain_of_forall fun d hd => ?_
  cases List.mem_singleton.1 hd
  constructor <;> intro heq <;> subst heq <;> exact absurd h (by decide)

/-- A `#` in a name goes on with it, so that a lexeme is plain unless it is a string. -/
theorem IsLexeme.string_or_plain {text : List Char} (h : IsLexeme text) :
    (∃ body, '"' ∉ body ∧ text = '"' :: body ++ ['"']) ∨ IsPlain text := by
  cases h with
  | string hbody => exact .inl ⟨_, hbody, rfl⟩
  | delimiter hd =>
    refine .inr (isPlain_of_forall fun c hc => ?_)
    cases List.mem_singleton.1 hc
    simp only [List.mem_cons, List.not_mem_nil, or_false] at hd
    obtain rfl | rfl | rfl | rfl | rfl | rfl | rfl := hd <;> decide
  | quotedOpener hd =>
    refine .inr (isPlain_of_forall fun c hc => ?_)
    simp only [List.mem_cons, List.not_mem_nil, or_false] at hd hc
    obtain rfl | rfl := hd <;> obtain rfl | rfl := hc <;> decide
  | number _ hdigits =>
    refine .inr (isPlain_of_forall fun c hc => ?_)
    have hdigit := hdigits c hc
    constructor <;> intro heq <;> subst heq <;> exact absurd hdigit (by decide)
  | @name first rest _ hfirst hword =>
    refine .inr (isPlain_of_split fun front c back htext => ⟨?_, ?_⟩)
    · intro heq
      exact hword c (by simp [htext]) (by simp [heq, reserved])
    · intro heq
      obtain rfl | ⟨init, d, rfl⟩ := List.eq_nil_or_concat front
      · cases htext
        exact absurd heq hfirst
      · exact ⟨init, d, by simp, hword d (by simp [htext])⟩

namespace Piece

variable {p : Piece} {before after : List Char}

/-- A lexeme that is no word may stand anywhere. -/
theorem isValid_of_reserved {text : List Char} {c : Char} (h : IsLexeme text) (hc : c ∈ text)
    (hreserved : c ∈ reserved) : (lexeme text).IsValid before after :=
  ⟨h, h.isLongest fun hplain => absurd hreserved (hplain c hc)⟩

/-- A string or comment is all of its piece, and in other pieces nothing opens. -/
theorem opens_or_plain (h : p.IsValid before after) :
    (CanOpen (before ++ (p.chars ++ after)) before.length ∧
      regionEnd (before ++ (p.chars ++ after)) before.length = before.length + p.chars.length) ∨
    IsPlain p.chars := by
  cases p with
  | blank c => exact .inr (isPlain_of_isBlank h)
  | comment body =>
    obtain ⟨hbody, hended, hafter⟩ := h
    exact .inl ⟨canOpen_iff.2 (.inr ⟨rfl, hended⟩), regionEnd_comment hbody hafter⟩
  | lexeme text =>
    obtain ⟨body, hbody, rfl⟩ | hplain := h.1.string_or_plain
    · exact .inl ⟨canOpen_iff.2 (.inl rfl), regionEnd_string hbody⟩
    · exact .inr hplain

/-- Behind a piece one may go on. -/
theorem clear (h : p.IsValid before after)
    (hclear : Clear (before ++ (p.chars ++ after)) before.length) :
    Clear (before ++ (p.chars ++ after)) (before.length + p.chars.length) := by
  obtain ⟨hopen, hend⟩ | hplain := opens_or_plain h
  · rw [← hend]
    exact hclear.pass hopen
  · exact hclear.skip (Nat.le_add_right _ _) (hplain before after)

/-- Within a piece, a string or comment opens at the beginning only, and is all of the piece. -/
theorem opens_within (h : p.IsValid before after)
    (hclear : Clear (before ++ (p.chars ++ after)) before.length) {k : Nat}
    (hopens : Opens (before ++ (p.chars ++ after)) k) (hk : before.length ≤ k)
    (hk' : k < before.length + p.chars.length) :
    k = before.length ∧
      regionEnd (before ++ (p.chars ++ after)) k = before.length + p.chars.length := by
  obtain ⟨hopen, hend⟩ | hplain := opens_or_plain h
  · have hsame := (opens_iff.2 ⟨hopen, hclear⟩).eq_of_within hopens hk (by omega)
    exact ⟨hsame, hsame ▸ hend⟩
  · exact absurd (opens_iff.1 hopens).1 (hplain before after k hk hk')

end Piece

@[simp] theorem lineBreaks_nil : lineBreaks [] = 0 := rfl

@[simp] theorem lineBreaks_append (xs ys : List Char) :
    lineBreaks (xs ++ ys) = lineBreaks xs + lineBreaks ys :=
  List.count_append

namespace Layout

/-- The text of a layout. -/
def chars (layout : List Piece) : List Char :=
  layout.flatMap Piece.chars

/-- The tokens of a layout that starts on a line. -/
def tokens (line : Nat) : List Piece → List Token
  | [] => []
  | p :: rest => p.tokens line ++ tokens (line + lineBreaks p.chars) rest

/-- The places of the tokens of a layout that starts at a position. -/
def spans (offset : Nat) : List Piece → List Span
  | [] => []
  | p :: rest => p.spans offset ++ spans (offset + p.chars.length) rest

/-- All pieces are as they have to be, between the text before them and the text after them. -/
def IsValid (before after : List Char) : List Piece → Prop
  | [] => True
  | p :: rest => p.IsValid before (chars rest ++ after) ∧ IsValid (before ++ p.chars) after rest

@[simp] theorem chars_nil : chars [] = [] := rfl

@[simp] theorem chars_cons (p : Piece) (layout : List Piece) :
    chars (p :: layout) = p.chars ++ chars layout := rfl

@[simp] theorem chars_append (layout others : List Piece) :
    chars (layout ++ others) = chars layout ++ chars others := by
  simp [chars]

theorem tokens_append (line : Nat) (layout others : List Piece) :
    tokens line (layout ++ others) =
      tokens line layout ++ tokens (line + lineBreaks (chars layout)) others := by
  induction layout generalizing line with
  | nil => simp [tokens]
  | cons p rest ih => simp [tokens, ih, Nat.add_assoc]

theorem spans_append (offset : Nat) (layout others : List Piece) :
    spans offset (layout ++ others) =
      spans offset layout ++ spans (offset + (chars layout).length) others := by
  induction layout generalizing offset with
  | nil => simp [spans]
  | cons p rest ih => simp [spans, ih, Nat.add_assoc]

theorem isValid_append {before after : List Char} {layout others : List Piece} :
    IsValid before after (layout ++ others) ↔
      IsValid before (chars others ++ after) layout ∧
        IsValid (before ++ chars layout) after others := by
  induction layout generalizing before with
  | nil => simp [IsValid]
  | cons p rest ih => simp [IsValid, ih, and_assoc]

/-! ### Pieces at their places -/

/-- No string or comment goes on behind a layout. -/
theorem clear {before after : List Char} {layout : List Piece} (h : IsValid before after layout)
    (hclear : Clear (before ++ (chars layout ++ after)) before.length) :
    Clear (before ++ (chars layout ++ after)) (before ++ chars layout).length := by
  induction layout generalizing before with
  | nil => simpa using hclear
  | cons p rest ih =>
    obtain ⟨hp, hrest⟩ := h
    have hsource : before ++ (chars (p :: rest) ++ after) =
        before ++ (p.chars ++ (chars rest ++ after)) := by simp
    rw [hsource] at hclear ⊢
    have hnext := ih hrest (by simpa using Piece.clear hp hclear)
    simpa using hnext

theorem IsValid.clear {after : List Char} {layout : List Piece} (h : IsValid [] after layout) :
    Clear (chars layout ++ after) (chars layout).length :=
  Layout.clear h (clear_zero _)

theorem chars_split (front : List Piece) (p : Piece) (back : List Piece) :
    chars (front ++ p :: back) = chars front ++ (p.chars ++ chars back) := by
  rw [chars_append, chars_cons]

/-- Each piece is as it has to be, and nothing that opens before it goes on there. -/
theorem IsValid.piece {front back : List Piece} {p : Piece}
    (h : IsValid [] [] (front ++ p :: back)) :
    p.IsValid (chars front) (chars back) ∧
      Clear (chars front ++ (p.chars ++ chars back)) (chars front).length := by
  obtain ⟨hfront, hp, -⟩ := isValid_append.1 h
  rw [List.append_nil] at hp hfront
  exact ⟨hp, hfront.clear⟩

theorem exists_piece {layout : List Piece} {i : Nat} (h : i < (chars layout).length) :
    ∃ front p back, layout = front ++ p :: back ∧ (chars front).length ≤ i ∧
      i < (chars front).length + p.chars.length := by
  induction layout generalizing i with
  | nil => simp at h
  | cons p rest ih =>
    by_cases hp : i < p.chars.length
    · exact ⟨[], p, rest, rfl, by simp, by simpa using hp⟩
    · rw [chars_cons, List.length_append] at h
      obtain ⟨front, q, back, rfl, hle, hlt⟩ := @ih (i - p.chars.length) (by omega)
      refine ⟨p :: front, q, back, rfl, ?_, ?_⟩
      · rw [chars_cons, List.length_append]
        omega
      · rw [chars_cons, List.length_append]
        omega

theorem exists_of_mem_spans {s : Span} {offset : Nat} {layout : List Piece}
    (h : s ∈ spans offset layout) :
    ∃ front text back, layout = front ++ .lexeme text :: back ∧
      s = ⟨offset + (chars front).length, offset + (chars front).length + text.length⟩ := by
  induction layout generalizing offset with
  | nil => cases h
  | cons p rest ih =>
    obtain hp | hrest := List.mem_append.1 h
    · cases p with
      | lexeme text => exact ⟨[], text, rest, rfl, List.mem_singleton.1 hp⟩
      | _ => cases hp
    · obtain ⟨front, text, back, rfl, rfl⟩ := ih hrest
      exact ⟨p :: front, text, back, rfl, by simp [Nat.add_assoc]⟩

theorem mem_spans {s : Span} {layout : List Piece} :
    s ∈ spans 0 layout ↔ ∃ front text back, layout = front ++ .lexeme text :: back ∧
      s = ⟨(chars front).length, (chars front).length + text.length⟩ := by
  constructor
  · intro h
    simpa using exists_of_mem_spans h
  · rintro ⟨front, text, back, rfl, rfl⟩
    simp [spans_append, spans, Piece.spans]

theorem spans_increasing (offset : Nat) (layout : List Piece) :
    (spans offset layout).Pairwise fun a b => a.stop ≤ b.start := by
  induction layout generalizing offset with
  | nil => exact List.Pairwise.nil
  | cons p rest ih =>
    cases p with
    | lexeme text =>
      refine List.Pairwise.cons (fun s hs => ?_) (ih _)
      obtain ⟨front, others, back, -, rfl⟩ := exists_of_mem_spans hs
      exact Nat.le_add_right _ _
    | _ => exact ih _

/-! ### The account that a layout gives -/

/-- A lexeme stands where the text before it ends. -/
theorem standsAt_lexeme {text before after : List Char}
    (h : (Piece.lexeme text).IsValid before after) :
    Token.StandsAt (before ++ (text ++ after)) ⟨String.ofList text, 1 + lineBreaks before⟩
      ⟨before.length, before.length + text.length⟩ where
  nonempty := by
    have := List.length_pos_iff.2 h.1.ne_nil
    dsimp only
    omega
  within := by simp
  text := by simp [Span.text]
  lexeme := by simpa [Span.text] using h.1
  longest := by
    intro stop hstop hwithin
    dsimp only at hstop
    simp only [List.length_append] at hwithin
    have htext : Span.text (before ++ (text ++ after)) ⟨before.length, stop⟩ =
        text ++ after.take (stop - before.length - text.length) := by
      unfold Span.text
      rw [List.drop_left, List.take_append, List.take_of_length_le (by dsimp only; omega)]
    rw [htext]
    refine h.2 _ ?_ (List.take_prefix _ _)
    rw [← List.length_pos_iff, List.length_take]
    omega
  line := by simp

theorem placed {before after : List Char} {layout : List Piece}
    (h : IsValid before after layout) :
    List.Forall₂ (Token.StandsAt (before ++ (chars layout ++ after)))
      (tokens (1 + lineBreaks before) layout) (spans before.length layout) := by
  induction layout generalizing before with
  | nil => exact List.Forall₂.nil
  | cons p rest ih =>
    obtain ⟨hp, hrest⟩ := h
    have hnext := ih hrest
    rw [List.append_assoc, ← List.append_assoc p.chars] at hnext
    rw [lineBreaks_append, List.length_append, ← Nat.add_assoc] at hnext
    cases p with
    | blank c => exact hnext
    | comment body => exact hnext
    | lexeme text =>
      refine List.Forall₂.cons ?_ hnext
      rw [chars_cons, List.append_assoc]
      exact standsAt_lexeme hp

section Account

variable {layout : List Piece} {s : Span} {i k : Nat} {c : Char}

/-- What opens in a text is all of one piece. -/
theorem exists_of_opens (h : IsValid [] [] layout) (hopens : Opens (chars layout) k)
    (hk : (chars layout)[k]? = some c) :
    ∃ front p back, layout = front ++ p :: back ∧ k = (chars front).length ∧
      regionEnd (chars layout) k = (chars front).length + p.chars.length ∧
      p.IsValid (chars front) (chars back) ∧ p.chars.head? = some c := by
  obtain ⟨hwithin, -⟩ := List.getElem?_eq_some_iff.1 hk
  obtain ⟨front, p, back, rfl, hle, hlt⟩ := exists_piece hwithin
  obtain ⟨hp, hclear⟩ := h.piece
  rw [chars_split] at hopens hk ⊢
  obtain ⟨rfl, hend⟩ := Piece.opens_within hp hclear hopens hle hlt
  refine ⟨front, p, back, rfl, rfl, hend, hp, ?_⟩
  have hpos : 0 < p.chars.length := by omega
  obtain ⟨d, rest, hd⟩ := List.exists_cons_of_length_pos hpos
  rw [hd] at hk ⊢
  simpa using hk

theorem strings (h : IsValid [] [] layout) (hs : StringAt (chars layout) s) :
    s ∈ spans 0 layout := by
  obtain ⟨hquote, hopens, hend⟩ := hs
  obtain ⟨front, p, back, rfl, hstart, hstop, hp, hhead⟩ := exists_of_opens h hopens hquote
  rw [mem_spans]
  cases p with
  | lexeme text =>
    refine ⟨front, text, back, rfl, ?_⟩
    rw [regionEnd_of_quote hquote, ← hend] at hstop
    cases s
    cases hstart
    cases hstop
    rfl
  | blank c =>
    cases hhead
    cases hp
  | comment body => simp [Piece.chars] at hhead

theorem comments (h : IsValid [] [] layout) (hi : InComment (chars layout) i)
    (hs : s ∈ spans 0 layout) : ¬ s.Covers i := by
  intro hcovers
  obtain ⟨r, hr, hcovers'⟩ := hi
  obtain ⟨hhash, hopens, hend⟩ := hr
  rw [← regionEnd_of_hash hhash] at hend
  obtain ⟨front, text, back, rfl, rfl⟩ := mem_spans.1 hs
  obtain ⟨hp, hclear⟩ := h.piece
  rw [chars_split] at hopens hhash hend
  obtain ⟨hstart, hstop⟩ := hcovers
  obtain ⟨hstart', hstop'⟩ := hcovers'
  dsimp only at hstart hstop
  -- The comment does not begin before the lexeme, for it would end there.
  have hle : (chars front).length ≤ r.start := by
    by_contra hlt
    have := hclear r.start (by omega) hopens
    omega
  obtain ⟨body, -, rfl⟩ | hplain := hp.1.string_or_plain
  · obtain ⟨heq, -⟩ := Piece.opens_within hp hclear hopens hle
      (Nat.lt_of_le_of_lt hstart' hstop)
    rw [heq] at hhash
    simp [Piece.chars] at hhash
  · exact hplain _ _ _ hle (Nat.lt_of_le_of_lt hstart' hstop) (opens_iff.1 hopens).1

theorem commentAt {front back : List Piece} {body : List Char}
    (h : IsValid [] [] (front ++ .comment body :: back)) :
    CommentAt (chars (front ++ .comment body :: back))
      ⟨(chars front).length, (chars front).length + (Piece.comment body).chars.length⟩ := by
  obtain ⟨⟨hbody, hended, hafter⟩, hclear⟩ := h.piece
  rw [chars_split]
  have hhash : (chars front ++ ((Piece.comment body).chars ++ chars back))[(chars front).length]? =
      some '#' := by simp [Piece.chars]
  refine ⟨hhash, opens_iff.2 ⟨.inr ⟨hhash, ?_⟩, hclear⟩, ?_⟩
  · rw [List.take_left]
    exact hended
  · rw [← regionEnd_of_hash hhash]
    exact (regionEnd_comment hbody hafter).symm

theorem skipped (h : IsValid [] [] layout) (hc : (chars layout)[i]? = some c)
    (hout : ∀ s ∈ spans 0 layout, ¬ s.Covers i) :
    (Scanner.isBlank c = true ∧ ¬ InString (chars layout) i) ∨ InComment (chars layout) i := by
  obtain ⟨hwithin, -⟩ := List.getElem?_eq_some_iff.1 hc
  obtain ⟨front, p, back, hlayout, hle, hlt⟩ := exists_piece hwithin
  cases p with
  | blank d =>
    left
    constructor
    · rw [hlayout] at h hc
      have hi : i = (chars front).length := by
        rw [Piece.chars, List.length_singleton] at hlt
        omega
      have hd : d = c := by simpa [hi, Piece.chars] using hc
      exact hd ▸ h.piece.1
    · rintro ⟨s, hs, hcovers⟩
      exact hout s (strings h hs) hcovers
  | comment body =>
    right
    subst hlayout
    exact ⟨_, commentAt h, hle, hlt⟩
  | lexeme text =>
    exact absurd ⟨hle, hlt⟩ (hout _ (mem_spans.2 ⟨front, text, back, hlayout, rfl⟩))

/-- A layout accounts for its text. -/
theorem accounted (h : IsValid [] [] layout) :
    Accounted (chars layout) (tokens 1 layout) (spans 0 layout) where
  placed := by simpa using placed h
  increasing := spans_increasing 0 layout
  strings _ hs := strings h hs
  comments _ hi _ hs := comments h hi hs
  skipped _ _ hc hout := skipped h hc hout

end Account

end Layout

end ExprShell
