/-
JSON text of data reads back (`Tool.fromJson_toJson`): what `to-json` writes, `from-json` reads as
the same value, for all strings, the whole range of both kinds of words, and lists as deep as the
reader goes.

The text of a value is followed through the reader with the rest of the input left open
(`Node.ReadsAs`). A string needs nothing of the rest, since it ends with its own quote; a number
does, since a digit, a point or an exponent behind it would change it, and in a compact text only a
comma, the end of a list or nothing stands there (`EndsValue`).
-/
import ExprShell.Machine.Host
import ExprShell.Proofs.Number
import ExprShell.Proofs.Reader.ReadBack
import ExprShell.Tool.Run

namespace ExprShell

namespace Json

/-! ## Outcomes -/

/-- The outcome is a value, with a text left over. -/
def Gives {α : Type} {bound : Nat} (o : Outcome α bound) (a : α) (rest : List Char) : Prop :=
  ∃ h, o = .ok ⟨a, rest, h⟩

/-- What may stand behind a value in a compact text: nothing, a comma or the end of a list. -/
def EndsValue (rest : List Char) : Prop :=
  ∀ c more, rest = c :: more → c = ',' ∨ c = ']'

/-! ## Strings -/

theorem length_le_byteCount (cs : List Char) : cs.length ≤ byteCount cs := by
  have general : ∀ n, n + cs.length ≤ cs.foldl (fun count c => count + c.utf8Size) n := by
    induction cs with
    | nil => exact fun n => Nat.le_refl n
    | cons c cs ih =>
      intro n
      have hsize := c.utf8Size_pos
      have hrest := ih (n + c.utf8Size)
      simp only [List.length_cons, List.foldl_cons]
      omega
  have h := general 0
  rwa [Nat.zero_add] at h

theorem isHex_hexDigit {n : Nat} (h : n < 16) : isHex (hexDigit n) = true := by
  revert n
  decide

theorem hexValue_hexDigit {n : Nat} (h : n < 16) : hexValue (hexDigit n) = n := by
  revert n
  decide

theorem hex4_gives {a b : Nat} (ha : a < 16) (hb : b < 16) (rest : List Char) :
    Gives (hex4 ('0' :: '0' :: hexDigit a :: hexDigit b :: rest)) (16 * a + b) rest := by
  have hcount := length_le_byteCount ('0' :: '0' :: hexDigit a :: hexDigit b :: rest)
  have hroom : ¬ byteCount ('0' :: '0' :: hexDigit a :: hexDigit b :: rest) < 4 := by
    simp only [List.length_cons] at hcount
    omega
  have hzero : isHex '0' = true := by decide
  have hvalue : hexValue '0' = 0 := by decide
  refine ⟨by simp only [List.length_cons]; omega, ?_⟩
  rw [hex4, if_neg hroom]
  simp [hzero, hvalue, isHex_hexDigit ha, isHex_hexDigit hb, hexValue_hexDigit ha,
    hexValue_hexDigit hb]

/-- A control character is written in hexadecimal. -/
theorem escape_hex {c : Char} (hc : c.toNat < 0x20) (rest : List Char) :
    Gives (escape ('u' :: '0' :: '0' :: hexDigit (c.toNat / 16) :: hexDigit (c.toNat % 16) :: rest))
      c rest := by
  obtain ⟨hshorter, hhex⟩ :=
    hex4_gives (a := c.toNat / 16) (b := c.toNat % 16) (by omega) (by omega) rest
  have hvalue : 16 * (c.toNat / 16) + c.toNat % 16 = c.toNat := Nat.div_add_mod _ _
  rw [hvalue] at hhex
  have htrailing : isTrailing c.toNat = false := by
    simp only [isTrailing, Bool.and_eq_false_imp, decide_eq_true_eq, decide_eq_false_iff_not]
    omega
  have hleading : isLeading c.toNat = false := by
    simp only [isLeading, Bool.and_eq_false_imp, decide_eq_true_eq, decide_eq_false_iff_not]
    omega
  refine ⟨by simp only [List.length_cons]; omega, ?_⟩
  simp [escape, hhex, htrailing, hleading, bind, Except.bind, pure, Except.pure]

theorem stringChars_close (rest : List Char) : Gives (stringChars ('"' :: rest)) [] rest :=
  ⟨by simp, by rw [stringChars]; rfl⟩

theorem stringChars_escape {cs after es rest : List Char} {c : Char}
    (hc : Gives (escape cs) c after) (hes : Gives (stringChars after) es rest) :
    Gives (stringChars ('\\' :: cs)) (c :: es) rest := by
  obtain ⟨hafter, hc⟩ := hc
  obtain ⟨hrest, hes⟩ := hes
  refine ⟨by simp only [List.length_cons]; omega, ?_⟩
  rw [stringChars]
  simp [hc, hes, bind, Except.bind, pure, Except.pure]

theorem stringChars_plain {cs es rest : List Char} {c : Char} (hquote : c ≠ '"')
    (hslash : c ≠ '\\') (hcontrol : ¬ c.toNat < 0x20) (hes : Gives (stringChars cs) es rest) :
    Gives (stringChars (c :: cs)) (c :: es) rest := by
  obtain ⟨hrest, hes⟩ := hes
  refine ⟨by simp only [List.length_cons]; omega, ?_⟩
  rw [stringChars]
  simp [hquote, hslash, hcontrol, hes, bind, Except.bind, pure, Except.pure]

/-- The characters that have an escape of their own. -/
def shortEscapes : List Char :=
  ['"', '\\', '\x08', '\t', '\n', '\x0c', '\r']

theorem escaped_of_not_mem {c : Char} (h : c ∉ shortEscapes) :
    escaped c = if c.toNat < 0x20 then
      ['\\', 'u', '0', '0', hexDigit (c.toNat / 16), hexDigit (c.toNat % 16)] else [c] := by
  unfold escaped
  split
  iterate 7 exact absurd (by decide) h
  rfl

/-- A character reads back from its escaped form. -/
theorem stringChars_escaped {cs es rest : List Char} (c : Char)
    (hes : Gives (stringChars cs) es rest) :
    Gives (stringChars (escaped c ++ cs)) (c :: es) rest := by
  by_cases hshort : c ∈ shortEscapes
  · simp only [shortEscapes, List.mem_cons, List.not_mem_nil, or_false] at hshort
    obtain rfl | rfl | rfl | rfl | rfl | rfl | rfl := hshort
    all_goals exact stringChars_escape ⟨by simp, rfl⟩ hes
  · rw [escaped_of_not_mem hshort]
    by_cases hcontrol : c.toNat < 0x20
    · rw [if_pos hcontrol]
      exact stringChars_escape (escape_hex hcontrol cs) hes
    · rw [if_neg hcontrol]
      simp only [shortEscapes, List.mem_cons, not_or] at hshort
      exact stringChars_plain hshort.1 hshort.2.1 hcontrol hes

theorem stringChars_quoted (cs rest : List Char) :
    Gives (stringChars (cs.flatMap escaped ++ '"' :: rest)) cs rest := by
  induction cs with
  | nil => exact stringChars_close rest
  | cons c cs ih =>
    rw [List.flatMap_cons, List.append_assoc]
    exact stringChars_escaped c ih

/-! ## Values

The first character of a value that is no space says what is read. -/

theorem skipSpace_cons {c : Char} (hc : isSpace c = false) (cs : List Char) :
    skipSpace (c :: cs) = c :: cs := by
  rw [skipSpace, List.dropWhile_cons_of_neg (by simp [hc])]

theorem value_string {room : Nat} {cs text rest : List Char}
    (h : Gives (stringChars cs) text rest) :
    Gives (value room ('"' :: cs)) (.string (String.ofList text)) rest := by
  obtain ⟨hrest, h⟩ := h
  refine ⟨by simp only [List.length_cons]; omega, ?_⟩
  rw [value]
  split
  · next hc => cases hc
  · next hc =>
    rw [skipSpace_cons rfl] at hc
    cases hc
    simp [h, bind, Except.bind, pure, Except.pure]

theorem value_bool (room : Nat) (b : Bool) (rest : List Char) :
    Gives (value room ((if b then "true" else "false").toList ++ rest)) (.bool b) rest := by
  cases b
  all_goals
    refine ⟨by simp; omega, ?_⟩
    rw [value]
    split
    · next hc => cases hc
    · next hc =>
      cases hc
      rfl

theorem value_array {room : Nat} {cs rest : List Char} {items : List Json}
    (h : Gives (elements room true cs) items rest) :
    Gives (value (room + 1) ('[' :: cs)) (.array items) rest := by
  obtain ⟨hrest, h⟩ := h
  refine ⟨by simp only [List.length_cons]; omega, ?_⟩
  rw [value]
  split
  · next hc => cases hc
  · next hc =>
    rw [skipSpace_cons rfl] at hc
    cases hc
    simp [h, bind, Except.bind, pure, Except.pure]

theorem value_negative {room : Nat} {cs rest : List Char} {j : Json}
    (h : Gives (numeral true cs) j rest) : Gives (value room ('-' :: cs)) j rest := by
  obtain ⟨hrest, h⟩ := h
  refine ⟨by simp only [List.length_cons]; omega, ?_⟩
  rw [value]
  split
  · next hc => cases hc
  · next hc =>
    rw [skipSpace_cons rfl] at hc
    cases hc
    simp [h, widen]

theorem ne_of_isDigit {c : Char} (hc : c.isDigit = true) (d : Char) (hd : d.isDigit = false) :
    c ≠ d := by
  rintro rfl
  rw [hc] at hd
  cases hd

theorem isSpace_of_isDigit {c : Char} (hc : c.isDigit = true) : isSpace c = false := by
  have hne := ne_of_isDigit hc
  simp [isSpace, hne ' ' rfl, hne '\t' rfl, hne '\n' rfl, hne '\r' rfl]

theorem value_digit {room : Nat} {c : Char} {cs rest : List Char} {j : Json}
    (hc : c.isDigit = true) (h : Gives (numeral false (c :: cs)) j rest) :
    Gives (value room (c :: cs)) j rest := by
  obtain ⟨hrest, h⟩ := h
  have hne := ne_of_isDigit hc
  have hspace := isSpace_of_isDigit hc
  refine ⟨hrest, ?_⟩
  rw [value]
  split
  · next hnone =>
    rw [skipSpace_cons hspace] at hnone
    cases hnone
  · next hsome =>
    rw [skipSpace_cons hspace] at hsome
    cases hsome
    simp [h, widen, hc, hne 'n' rfl, hne 't' rfl, hne 'f' rfl, hne '-' rfl, hne '"' rfl,
      hne '[' rfl, hne '\x7b' rfl]

/-! ## Numbers -/

/-- An integer in range has its exact value and not a float, unless it is a negative zero. -/
theorem integer_eq (negative : Bool) {k : Nat} {v : Int} (rest : List Char)
    (hv : v = if negative then -(k : Int) else k) (hzero : negative = true → k ≠ 0)
    (hmin : Number.minSigned ≤ v) (hmax : v ≤ Number.maxUnsigned) :
    ∃ m, integer negative (Nat.toDigits 10 k) rest = .ok (.number m) ∧ m.value = v ∧
      m.isNormal = true := by
  obtain ⟨m, hm, hvalue, hnormal⟩ := Number.ofInt?_eq_some hmin hmax
  have hsigned : (negative && k == 0) = false := by
    cases negative with
    | false => rfl
    | true => simpa using hzero rfl
  refine ⟨m, ?_, hvalue, hnormal⟩
  rw [hv] at hm
  simp only [integer, Number.ofDigits_toDigits, hsigned, hm]
  rfl

theorem numberEnd_gives {negative : Bool} {digits rest : List Char} {j : Json}
    (hrest : EndsValue rest) (hj : integer negative digits rest = .ok j) :
    Gives (numberEnd negative digits rest) j rest := by
  refine ⟨Nat.lt_succ_self _, ?_⟩
  cases rest with
  | nil => simp [numberEnd, hj]
  | cons c rest =>
    obtain rfl | rfl := hrest c rest rfl
    · simp [numberEnd, hj]
    · simp [numberEnd, hj]

theorem numeral_of_numberEnd {negative : Bool} {c : Char} {cs rest : List Char} {j : Json}
    (hc : c.isDigit = true) (hzero : c ≠ '0')
    (hend : Gives (numberEnd negative (c :: cs.takeWhile Char.isDigit) (cs.dropWhile Char.isDigit))
      j rest) : Gives (numeral negative (c :: cs)) j rest := by
  obtain ⟨hshorter, hend⟩ := hend
  have hlength : (cs.dropWhile Char.isDigit).length ≤ cs.length :=
    (List.dropWhile_sublist Char.isDigit).length_le
  refine ⟨by simp only [List.length_cons]; omega, ?_⟩
  simp [numeral, hc, hzero, hend]

theorem numeral_gives {negative : Bool} {k : Nat} {rest : List Char} {j : Json}
    (hrest : EndsValue rest) (hj : integer negative (Nat.toDigits 10 k) rest = .ok j) :
    Gives (numeral negative (Nat.toDigits 10 k ++ rest)) j rest := by
  have hend := numberEnd_gives hrest hj
  have hdigit : ∀ c more, rest = c :: more → ¬ c.isDigit = true := by
    intro c more hcons
    obtain rfl | rfl := hrest c more hcons
    · decide
    · decide
  obtain ⟨c, digits, hdigits, hc, -⟩ := Number.toDigits_eq_cons k
  have hall : ∀ d ∈ digits, d.isDigit = true := fun d hd =>
    Number.isDigit_toDigits (by rw [hdigits]; exact List.mem_cons_of_mem c hd)
  rw [hdigits] at hend ⊢
  by_cases hzero : c = '0'
  · subst hzero
    obtain ⟨-, rfl⟩ := Number.toDigits_eq_zero_cons hdigits
    obtain ⟨hshorter, hend⟩ := hend
    have hhead : rest.head?.any Char.isDigit = false := by
      cases rest with
      | nil => rfl
      | cons d more => simpa using hdigit d more rfl
    exact ⟨hshorter, by simp [numeral, hhead, hend]⟩
  · rw [List.cons_append]
    refine numeral_of_numberEnd hc hzero ?_
    rw [List.takeWhile_append_of_pos hall, List.dropWhile_append_of_pos hall]
    cases rest with
    | nil => simpa using hend
    | cons d more =>
      have hd := hdigit d more rfl
      rw [List.takeWhile_cons_of_neg hd, List.dropWhile_cons_of_neg hd, List.append_nil]
      exact hend

/-- The text of a number is read as a number of its value. -/
theorem value_number (room : Nat) (n : Number) {rest : List Char} (hrest : EndsValue rest) :
    ∃ m : Number, Gives (value room (n.text.toList ++ rest)) (.number m) rest ∧
      m.value = n.value ∧ m.isNormal = true := by
  have hmin := n.minSigned_le_value
  have hmax := n.value_le_maxUnsigned
  obtain ⟨k, hvalue, htext⟩ | ⟨k, hvalue, htext⟩ := n.text_cases
  · obtain ⟨m, hm, hsame, hnormal⟩ :=
      integer_eq false rest hvalue (fun h => by cases h) hmin hmax
    have hnumeral := numeral_gives hrest hm
    obtain ⟨c, digits, hdigits, hc, -⟩ := Number.toDigits_eq_cons k
    rw [htext]
    rw [hdigits] at hnumeral ⊢
    exact ⟨m, value_digit hc hnumeral, hsame, hnormal⟩
  · have hzero : k ≠ 0 := by
      rintro rfl
      have hdigits : n.text.toList = ['0'] := by
        rw [Number.text, hvalue]
        rfl
      rw [hdigits] at htext
      cases htext
    obtain ⟨m, hm, hsame, hnormal⟩ :=
      integer_eq true rest hvalue (fun _ => hzero) hmin hmax
    rw [htext]
    exact ⟨m, value_negative (numeral_gives hrest hm), hsame, hnormal⟩

/-! ## Lists -/

/-- A text that starts neither with a space nor with the end of a list. -/
def StartsValue (cs : List Char) : Prop :=
  ∃ c more, cs = c :: more ∧ isSpace c = false ∧ c ≠ ']'

theorem StartsValue.append {cs : List Char} (h : StartsValue cs) (rest : List Char) :
    StartsValue (cs ++ rest) := by
  obtain ⟨c, more, rfl, hspace, hend⟩ := h
  exact ⟨c, more ++ rest, rfl, hspace, hend⟩

theorem elements_close (room : Nat) (first : Bool) (rest : List Char) :
    Gives (elements room first (']' :: rest)) [] rest := by
  refine ⟨by simp, ?_⟩
  rw [elements]
  split
  · next hc => cases hc
  · next hc =>
    rw [skipSpace_cons rfl] at hc
    cases hc
    rfl

theorem elements_first {room : Nat} {cs after rest : List Char} {j : Json} {js : List Json}
    (hstart : StartsValue cs) (hj : Gives (value room cs) j after)
    (hjs : Gives (elements room false after) js rest) :
    Gives (elements room true cs) (j :: js) rest := by
  obtain ⟨c, more, rfl, hspace, hend⟩ := hstart
  obtain ⟨hafter, hj⟩ := hj
  obtain ⟨hrest, hjs⟩ := hjs
  refine ⟨by omega, ?_⟩
  rw [elements]
  split
  · next hc =>
    rw [skipSpace_cons hspace] at hc
    cases hc
  · next hc =>
    rw [skipSpace_cons hspace] at hc
    cases hc
    simp [hend, hj, hjs, bind, Except.bind, pure, Except.pure]

theorem elements_next {room : Nat} {cs after rest : List Char} {j : Json} {js : List Json}
    (hstart : StartsValue cs) (hj : Gives (value room cs) j after)
    (hjs : Gives (elements room false after) js rest) :
    Gives (elements room false (',' :: cs)) (j :: js) rest := by
  obtain ⟨c, more, rfl, hspace, hend⟩ := hstart
  obtain ⟨hafter, hj⟩ := hj
  obtain ⟨hrest, hjs⟩ := hjs
  refine ⟨by simp only [List.length_cons] at hafter ⊢; omega, ?_⟩
  rw [elements]
  split
  · next hc => cases hc
  · next hc =>
    rw [skipSpace_cons rfl] at hc
    cases hc
    rw [skipSpace_cons hspace]
    simp [hj, hjs, bind, Except.bind, pure, Except.pure]

/-- The elements of a list after its first, and its end. -/
def listTail : List String → List Char
  | [] => [']']
  | text :: rest => ',' :: (text.toList ++ listTail rest)

theorem toList_intercalate (text : String) (texts : List String) :
    (",".intercalate (text :: texts)).toList ++ [']'] = text.toList ++ listTail texts := by
  induction texts generalizing text with
  | nil => simp [listTail]
  | cons next texts ih =>
    rw [String.intercalate_cons_cons, String.toList_append, String.toList_append, List.append_assoc,
      ih next]
    simp [listTail]

theorem endsValue_listTail (texts : List String) (rest : List Char) :
    EndsValue (listTail texts ++ rest) := by
  cases texts with
  | nil =>
    rintro c more ⟨⟩
    exact .inr rfl
  | cons text texts =>
    rintro c more ⟨⟩
    exact .inl rfl

end Json

/-! ## Whole values -/

namespace Node

mutual

/-- Strings, numbers, booleans, and lists of these. -/
def isJsonData : Node → Bool
  | .string .. | .number .. | .boolean .. => true
  | .list _ items => areJsonData items
  | _ => false

def areJsonData : List Node → Bool
  | [] => true
  | n :: rest => isJsonData n && areJsonData rest

end

mutual

/-- Every list is quoted, and every number in normal form. -/
def isNormal : Node → Bool
  | .number _ n => n.isNormal
  | .list s items => s.quoted && areNormal items
  | _ => true

def areNormal : List Node → Bool
  | [] => true
  | n :: rest => isNormal n && areNormal rest

end

open Json (Gives StartsValue EndsValue listTail)

/-- A text that is read as JSON of a node in normal form with the same value, whatever follows. -/
structure ReadsAs (room : Nat) (text : String) (n : Node) : Prop where
  starts : StartsValue text.toList
  gives (rest : List Char) : EndsValue rest → ∃ j m,
    Gives (Json.value room (text.toList ++ rest)) j rest ∧ j.toNode = .ok m ∧ m.same n = true ∧
      m.isNormal = true

/-- The texts of the elements of a list are read so one after the other. -/
def TailReadsAs (room : Nat) (texts : List String) (items : List Node) : Prop :=
  ∀ rest, ∃ js ms, Gives (Json.elements room false (listTail texts ++ rest)) js rest ∧
    Json.toNodes js = .ok ms ∧ sameAll ms items = true ∧ areNormal ms = true

namespace ReadsAs

theorem string (room : Nat) (s : Stamp) (text : String) :
    ReadsAs room (Json.quote text) (.string s text) where
  starts := by
    rw [Json.quote, String.toList_ofList]
    exact ⟨_, _, rfl, rfl, by decide⟩
  gives rest _ := by
    have h : Gives (Json.value room ('"' :: (text.toList.flatMap Json.escaped ++ '"' :: rest)))
        (.string (String.ofList text.toList)) rest :=
      Json.value_string (Json.stringChars_quoted text.toList rest)
    rw [String.ofList_toList] at h
    refine ⟨.string text, .ofString text, ?_, rfl, ?_, rfl⟩
    · rw [Json.quote, String.toList_ofList, List.append_assoc]
      exact h
    · simp [ofString, same]

theorem boolean (room : Nat) (s : Stamp) (b : Bool) :
    ReadsAs room (if b then "true" else "false") (.boolean s b) where
  starts := by
    cases b
    all_goals exact ⟨_, _, rfl, rfl, by decide⟩
  gives rest _ := ⟨_, .ofBool b, Json.value_bool room b rest, rfl, by simp [ofBool, same], rfl⟩

theorem number (room : Nat) (s : Stamp) (n : Number) : ReadsAs room n.text (.number s n) where
  starts := by
    obtain ⟨k, -, htext⟩ | ⟨k, -, htext⟩ := n.text_cases
    · obtain ⟨c, rest, hdigits, hc, -⟩ := Number.toDigits_eq_cons k
      rw [htext, hdigits]
      exact ⟨c, rest, rfl, Json.isSpace_of_isDigit hc, by rintro rfl; cases hc⟩
    · rw [htext]
      exact ⟨_, _, rfl, rfl, by decide⟩
  gives rest hrest := by
    obtain ⟨m, hgives, hvalue, hnormal⟩ := Json.value_number room n hrest
    exact ⟨_, .ofNumber m, hgives, rfl, by simp [ofNumber, same, Number.same, hvalue], hnormal⟩

/-- A list of which the tail can be read. -/
theorem list {room : Nat} (s : Stamp) {text : String} {texts : List String} {n : Node}
    {items : List Node} (hfirst : ReadsAs room text n) (htail : TailReadsAs room texts items) :
    ReadsAs (room + 1) ("[" ++ ",".intercalate (text :: texts) ++ "]") (.list s (n :: items)) := by
  have htext : ("[" ++ ",".intercalate (text :: texts) ++ "]").toList =
      '[' :: (text.toList ++ listTail texts) := by
    rw [← Json.toList_intercalate]
    simp
  refine ⟨?_, fun rest _ => ?_⟩
  · rw [htext]
    exact ⟨_, _, rfl, rfl, by decide⟩
  · obtain ⟨j, m, hj, hm, hsame, hnormal⟩ :=
      hfirst.gives (listTail texts ++ rest) (Json.endsValue_listTail texts rest)
    obtain ⟨js, ms, hjs, hms, hsames, hnormals⟩ := htail rest
    have helements := Json.elements_first (hfirst.starts.append _) hj hjs
    refine ⟨.array (j :: js), .data (m :: ms), ?_, ?_, ?_, ?_⟩
    · rw [htext, List.cons_append, List.append_assoc]
      exact Json.value_array helements
    · simp [Json.toNode, Json.toNodes, hm, hms, bind, Except.bind, pure, Except.pure]
    · simp [data, same, sameAll, hsame, hsames]
    · simp [data, isNormal, areNormal, hnormal, hnormals]

theorem emptyList (room : Nat) (s : Stamp) :
    ReadsAs (room + 1) ("[" ++ ",".intercalate [] ++ "]") (.list s []) where
  starts := ⟨_, _, rfl, rfl, by decide⟩
  gives rest _ :=
    ⟨.array [], .data [], Json.value_array (Json.elements_close room true rest), rfl, rfl, rfl⟩

end ReadsAs

theorem TailReadsAs.nil (room : Nat) : TailReadsAs room [] [] :=
  fun rest => ⟨[], [], Json.elements_close room false rest, rfl, rfl, rfl⟩

theorem TailReadsAs.cons {room : Nat} {text : String} {texts : List String} {n : Node}
    {items : List Node} (hfirst : ReadsAs room text n) (htail : TailReadsAs room texts items) :
    TailReadsAs room (text :: texts) (n :: items) := by
  intro rest
  obtain ⟨j, m, hj, hm, hsame, hnormal⟩ :=
    hfirst.gives (listTail texts ++ rest) (Json.endsValue_listTail texts rest)
  obtain ⟨js, ms, hjs, hms, hsames, hnormals⟩ := htail rest
  refine ⟨j :: js, m :: ms, ?_, ?_, ?_, ?_⟩
  · rw [listTail, List.cons_append, List.append_assoc]
    exact Json.elements_next (hfirst.starts.append _) hj hjs
  · simp [Json.toNodes, hm, hms, bind, Except.bind, pure, Except.pure]
  · simp [sameAll, hsame, hsames]
  · simp [areNormal, hnormal, hnormals]

mutual

/-- Data has a JSON text that is read as the same data, where there is room for its lists. -/
theorem toJson_readsAs (n : Node) (hn : n.isJsonData = true) (room : Nat)
    (hroom : n.nesting ≤ room) : ∃ text, n.toJson = .ok text ∧ ReadsAs room text n := by
  match n with
  | .string s text => exact ⟨_, rfl, .string room s text⟩
  | .number s n => exact ⟨_, rfl, .number room s n⟩
  | .boolean s b => exact ⟨_, rfl, .boolean room s b⟩
  | .list s [] =>
    obtain ⟨room, rfl⟩ : ∃ k, room = k + 1 := ⟨room - 1, by simp [nesting] at hroom; omega⟩
    exact ⟨_, rfl, .emptyList room s⟩
  | .list s (n :: items) =>
    obtain ⟨room, rfl⟩ : ∃ k, room = k + 1 := ⟨room - 1, by simp [nesting] at hroom; omega⟩
    simp only [isJsonData, areJsonData, Bool.and_eq_true] at hn
    simp only [nesting, nestingAll] at hroom
    obtain ⟨text, htext, hfirst⟩ := toJson_readsAs n hn.1 room (by omega)
    obtain ⟨texts, htexts, htail⟩ := itemsToJson_readAs items hn.2 room (by omega)
    refine ⟨_, ?_, .list s hfirst htail⟩
    simp [toJson, itemsToJson, htext, htexts, bind, Except.bind, pure, Except.pure]
  | .function .. | .operator .. | .identifier .. | .command .. | .commandResult .. | .error ..
  | .rawAst .. | .defunc .. => cases hn

theorem itemsToJson_readAs (items : List Node) (hitems : areJsonData items = true) (room : Nat)
    (hroom : nestingAll items ≤ room) :
    ∃ texts, itemsToJson items = .ok texts ∧ TailReadsAs room texts items := by
  match items with
  | [] => exact ⟨[], rfl, .nil room⟩
  | n :: items =>
    simp only [areJsonData, Bool.and_eq_true] at hitems
    simp only [nestingAll] at hroom
    obtain ⟨text, htext, hfirst⟩ := toJson_readsAs n hitems.1 room (by omega)
    obtain ⟨texts, htexts, htail⟩ := itemsToJson_readAs items hitems.2 room (by omega)
    refine ⟨text :: texts, ?_, .cons hfirst htail⟩
    simp [itemsToJson, htext, htexts, bind, Except.bind, pure, Except.pure]

end

theorem ofJson_of_readsAs {text : String} {n : Node} (h : ReadsAs Json.maxNesting text n) :
    ∃ m, ofJson text = .ok m ∧ m.same n = true ∧ m.isNormal = true := by
  obtain ⟨j, m, hj, hm, hsame, hnormal⟩ := h.gives [] fun _ _ h => by cases h
  rw [List.append_nil] at hj
  obtain ⟨_, hj⟩ := hj
  refine ⟨m, ?_, hsame, hnormal⟩
  rw [ofJson, Json.parse, hj]
  exact hm

end Node

/-- **JSON text of data reads back.** Strings, numbers, booleans and lists of them, with fewer than
128 lists inside one another, have a JSON text, and reading that text gives the same value, with
every list quoted and every number in normal form. Neither tool changes anything. -/
theorem Tool.fromJson_toJson {σ : Type} (host : Host σ) (searchPath : List String) (s : State σ)
    (n : Node) (hn : n.isJsonData = true) (hnesting : n.nesting < 128) :
    ∃ text m, Tool.toJson.call host searchPath [n] s = (.ok (.ofString text), s) ∧
      Tool.fromJson.call host searchPath [.ofString text] s = (.ok m, s) ∧
      m.same n = true ∧ m.isNormal = true := by
  obtain ⟨text, htext, hreads⟩ := Node.toJson_readsAs n hn Json.maxNesting (by
    unfold Json.maxNesting
    omega)
  obtain ⟨m, hm, hsame, hnormal⟩ := Node.ofJson_of_readsAs hreads
  refine ⟨text, m, ?_, ?_, hsame, hnormal⟩
  · change Eval.ofExcept (n.toJson.map Node.ofString) s = _
    rw [htext]
    rfl
  · change Eval.ofExcept (Node.ofJson text) s = _
    rw [hm]
    rfl

/-- A list that is no data, with a list in it, the least and the greatest number, a number that is
not in normal form, and a string that has to be escaped. -/
theorem Tool.fromJson_toJson_nested :
    let n : Node := .call [.ofNumber (.int (-9223372036854775808)),
      .data [.ofNumber (.uint 18446744073709551615), .ofNumber (.uint 7)], .ofBool false,
      .ofString "\"\\ \x00\x1f\n é😀"]
    let s : State Machine := ⟨{}, Machine.fresh⟩
    n.toJson = .ok ("[-9223372036854775808,[18446744073709551615,7],false," ++
      "\"\\\"\\\\ \\u0000\\u001f\\n é😀\"]") ∧
    n.nesting = 2 ∧
    ∃ text m, Tool.toJson.call Machine.host [] [n] s = (.ok (.ofString text), s) ∧
      Tool.fromJson.call Machine.host [] [.ofString text] s = (.ok m, s) ∧
      m.same n = true ∧ m.isNormal = true := by
  intro n s
  exact ⟨by rfl, rfl, Tool.fromJson_toJson Machine.host [] s n rfl (by decide)⟩

end ExprShell
