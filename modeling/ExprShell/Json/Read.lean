/-
JSON text to values. Numbers are exact where they are integers of 64 bits; all others are
known only as floats, and of objects only that they are objects. A text that is not JSON gives
a flaw with its place, counted in bytes.
-/
import ExprShell.Json.Flaw
import ExprShell.Json.Magnitude

namespace ExprShell

/-- What a JSON text denotes. -/
inductive Json where
  | null
  | bool (b : Bool)
  | number (n : Number)
  | float
  | string (text : String)
  | array (items : List Json)
  | object
  deriving Inhabited, Repr

namespace Json

/-! ## Where reading stops -/

/-- A cause, the text not consumed, and how many bytes further the place is. -/
structure Break where
  cause : Cause
  rest : List Char
  ahead : Nat
  deriving Inhabited, Repr

/-- Something read, and less than `bound` characters left over. -/
structure Read (α : Type) (bound : Nat) where
  value : α
  rest : List Char
  shorter : rest.length < bound

abbrev Outcome (α : Type) (bound : Nat) :=
  Except Break (Read α bound)

/-- The outcome as seen from further to the left. -/
def widen {α : Type} {n m : Nat} (h : n ≤ m) : Outcome α n → Outcome α m
  | .ok r => .ok ⟨r.value, r.rest, Nat.lt_of_lt_of_le r.shorter h⟩
  | .error b => .error b

/-- The text ran out, or what was consumed is wrong. -/
def breakAt {α : Type} (cause : Cause) (rest : List Char) : Except Break α :=
  .error ⟨cause, rest, 0⟩

/-- The next byte is wrong. -/
def breakNext {α : Type} (cause : Cause) (rest : List Char) : Except Break α :=
  .error ⟨cause, rest, 1⟩

/-- The number of bytes of a text. -/
def byteCount (text : List Char) : Nat :=
  text.foldl (fun count c => count + c.utf8Size) 0

/-- The line and column after some bytes: one more than the line ends among them, and the
bytes since the last one. -/
def place (bytes : List UInt8) : Nat × Nat :=
  bytes.foldl (fun (line, column) (b : UInt8) =>
    if b == 10 then (line + 1, 0) else (line, column + 1)) (1, 0)

/-- The flaw of a text that could not be read. -/
def Break.flaw (text : String) (b : Break) : Flaw :=
  let count := text.utf8ByteSize - byteCount b.rest + b.ahead
  let (line, column) := place (text.toUTF8.toList.take count)
  ⟨b.cause, line, column⟩

/-! ## Scalars -/

def isSpace (c : Char) : Bool :=
  c == ' ' || c == '\t' || c == '\n' || c == '\r'

def skipSpace (text : List Char) : List Char :=
  text.dropWhile isSpace

theorem length_skipSpace_le (text : List Char) : (skipSpace text).length ≤ text.length :=
  (List.dropWhile_sublist isSpace).length_le

/-- The rest of a word whose first letter was consumed. -/
def word (value : Json) (expected : List Char) (cs : List Char) :
    Outcome Json (cs.length + 1) :=
  match expected, cs with
  | [], cs => .ok ⟨value, cs, by simp⟩
  | _ :: _, [] => breakAt .eofValue []
  | e :: es, c :: rest =>
    if c == e then
      match word value es rest with
      | .ok r => .ok ⟨r.value, r.rest, Nat.lt_succ_of_lt r.shorter⟩
      | .error b => .error b
    else breakNext .expectedWord (c :: rest)

def isHex (c : Char) : Bool :=
  c.isDigit || ('a' ≤ c && c ≤ 'f') || ('A' ≤ c && c ≤ 'F')

def hexValue (c : Char) : Nat :=
  if c.isDigit then c.toNat - '0'.toNat
  else if 'a' ≤ c then c.toNat - 'a'.toNat + 10
  else c.toNat - 'A'.toNat + 10

/-- Four hexadecimal digits. -/
def hex4 (cs : List Char) : Outcome Nat cs.length :=
  if byteCount cs < 4 then breakAt .eofString []
  else
    match cs with
    | a :: b :: c :: d :: rest =>
      if [a, b, c, d].all isHex then
        .ok ⟨[a, b, c, d].foldl (fun n c => 16 * n + hexValue c) 0, rest,
          by simp only [List.length_cons]; omega⟩
      else .error ⟨.invalidEscape, cs, 4⟩
    | cs => .error ⟨.invalidEscape, cs, 4⟩

def isLeading (n : Nat) : Bool :=
  0xd800 ≤ n && n ≤ 0xdbff

def isTrailing (n : Nat) : Bool :=
  0xdc00 ≤ n && n ≤ 0xdfff

/-- The second half of a surrogate pair. -/
def trailing (leading : Nat) (cs : List Char) : Outcome Char cs.length :=
  match cs with
  | [] => breakAt .eofString []
  | '\\' :: [] => breakAt .eofString []
  | '\\' :: 'u' :: rest => do
    let ⟨n, after, h⟩ ← hex4 rest
    if isTrailing n then
      return ⟨Char.ofNat (0x10000 + (leading - 0xd800) * 0x400 + (n - 0xdc00)), after,
        by simp only [List.length_cons]; omega⟩
    else breakAt .loneSurrogate after
  | '\\' :: c :: rest => breakNext .cutSurrogate (c :: rest)
  | c :: rest => breakNext .cutSurrogate (c :: rest)

/-- The character of an escape whose backslash was consumed. -/
def escape (cs : List Char) : Outcome Char cs.length :=
  match cs with
  | [] => breakAt .eofString []
  | c :: rest =>
    match c with
    | '"' | '\\' | '/' => .ok ⟨c, rest, by simp⟩
    | 'b' => .ok ⟨'\x08', rest, by simp⟩
    | 'f' => .ok ⟨'\x0c', rest, by simp⟩
    | 'n' => .ok ⟨'\n', rest, by simp⟩
    | 'r' => .ok ⟨'\r', rest, by simp⟩
    | 't' => .ok ⟨'\t', rest, by simp⟩
    | 'u' => do
      let ⟨n, after, h⟩ ← hex4 rest
      if isTrailing n then breakAt .loneSurrogate after
      else if isLeading n then
        let ⟨c, final, h'⟩ ← trailing n after
        return ⟨c, final, by simp only [List.length_cons]; omega⟩
      else
        return ⟨Char.ofNat n, after, by simp only [List.length_cons]; omega⟩
    | _ => breakNext .invalidEscape (c :: rest)

/-- The characters of a string whose opening quote was consumed. -/
def stringChars (cs : List Char) : Outcome (List Char) cs.length :=
  match cs with
  | [] => breakAt .eofString []
  | c :: rest =>
    if c == '"' then .ok ⟨[], rest, by simp⟩
    else if c == '\\' then do
      let ⟨e, after, h⟩ ← escape rest
      let ⟨es, final, h'⟩ ← stringChars after
      return ⟨e :: es, final, by simp only [List.length_cons]; omega⟩
    else if c.toNat < 0x20 then breakNext .controlCharacter (c :: rest)
    else do
      let ⟨es, final, h⟩ ← stringChars rest
      return ⟨c :: es, final, by simp only [List.length_cons]; omega⟩
termination_by cs.length

/-! ## Numbers -/

/-- An integer without point and exponent. Those that have no exact form, and the negative
zero, are floats. -/
def integer (negative : Bool) (digits : List Char) (rest : List Char) :
    Except Break Json :=
  let n := Number.ofDigits digits
  if negative && n == 0 then .ok .float
  else
    match Number.ofInt? (if negative then -(n : Int) else n) with
    | some m => .ok (.number m)
    | none =>
      if (Magnitude.ofDigits digits []).overflows then breakAt .numberOutOfRange rest
      else .ok .float

/-- The largest exponent that is read as it stands. -/
def maxExponent : Nat := 2147483647

/-- The digits of an exponent up to the first that makes it too large, that one included. -/
def exponentDigits (n : Nat) : List Char → Nat × List Char
  | [] => (n, [])
  | c :: rest =>
    if c.isDigit then
      let n := 10 * n + (c.toNat - '0'.toNat)
      if maxExponent < n then (n, rest) else exponentDigits n rest
    else (n, c :: rest)

theorem length_exponentDigits_le (n : Nat) (cs : List Char) :
    (exponentDigits n cs).2.length ≤ cs.length := by
  induction cs generalizing n with
  | nil => simp [exponentDigits]
  | cons c rest ih =>
    simp only [exponentDigits]
    split
    · split
      · simp
      · exact Nat.le_succ_of_le (ih _)
    · exact Nat.le_refl _

/-- The exponent of a number whose mark and sign were consumed. -/
def exponent (m : Magnitude) (negative : Bool) (cs : List Char) : Outcome Json cs.length :=
  match cs with
  | [] => breakAt .eofValue []
  | c :: rest =>
    if c.isDigit then
      let e := exponentDigits (c.toNat - '0'.toNat) rest
      have h : e.2.length ≤ rest.length := length_exponentDigits_le _ rest
      if maxExponent < e.1 then
        if m.significand != 0 && !negative then breakAt .numberOutOfRange e.2
        else
          have h' : (e.2.dropWhile Char.isDigit).length ≤ e.2.length :=
            (List.dropWhile_sublist Char.isDigit).length_le
          .ok ⟨.float, e.2.dropWhile Char.isDigit, by simp only [List.length_cons]; omega⟩
      else
        let shift : Int := if negative then -(e.1 : Int) else e.1
        if { m with exponent := m.exponent + shift }.overflows then
          breakAt .numberOutOfRange e.2
        else .ok ⟨.float, e.2, by simp only [List.length_cons]; omega⟩
    else breakNext .invalidNumber (c :: rest)

/-- The exponent of a number whose mark was consumed. -/
def signedExponent (m : Magnitude) (cs : List Char) : Outcome Json cs.length :=
  match cs with
  | '+' :: rest => do
    let ⟨j, after, h⟩ ← exponent m false rest
    return ⟨j, after, by simp only [List.length_cons]; omega⟩
  | '-' :: rest => do
    let ⟨j, after, h⟩ ← exponent m true rest
    return ⟨j, after, by simp only [List.length_cons]; omega⟩
  | cs => exponent m false cs

/-- What may follow the digits of a number that has a point or more digits than fit. -/
def floatEnd (m : Magnitude) (cs : List Char) : Outcome Json (cs.length + 1) :=
  match cs with
  | c :: rest =>
    if c == 'e' || c == 'E' then do
      let ⟨j, after, h⟩ ← signedExponent m rest
      return ⟨j, after, by simp only [List.length_cons]; omega⟩
    else if m.overflows then breakAt .numberOutOfRange (c :: rest)
    else .ok ⟨.float, c :: rest, by simp⟩
  | [] => if m.overflows then breakAt .numberOutOfRange [] else .ok ⟨.float, [], by simp⟩

/-- What follows the digits before the point. -/
def numberEnd (negative : Bool) (digits : List Char) (cs : List Char) :
    Outcome Json (cs.length + 1) :=
  match cs with
  | '.' :: rest =>
    let decimals := rest.takeWhile Char.isDigit
    let after := rest.dropWhile Char.isDigit
    have h : after.length ≤ rest.length := (List.dropWhile_sublist Char.isDigit).length_le
    match decimals, rest with
    | [], [] => breakNext .eofValue []
    | [], c :: rest => breakNext .invalidNumber (c :: rest)
    | _ :: _, _ =>
      match floatEnd (Magnitude.ofDigits digits decimals) after with
      | .ok r => .ok ⟨r.value, r.rest, by
          have := r.shorter
          simp only [List.length_cons]; omega⟩
      | .error b => .error b
  | cs =>
    if cs.head?.any (fun c => c == 'e' || c == 'E') then
      floatEnd (Magnitude.ofDigits digits []) cs
    else
      match integer negative digits cs with
      | .ok j => .ok ⟨j, cs, Nat.lt_succ_self _⟩
      | .error b => .error b

/-- A number whose sign was consumed. A zero stands alone before the point. -/
def numeral (negative : Bool) (cs : List Char) : Outcome Json cs.length :=
  match cs with
  | [] => breakAt .eofValue []
  | c :: rest =>
    if !c.isDigit then breakNext .invalidNumber (c :: rest)
    else if c == '0' then
      if rest.head?.any Char.isDigit then breakNext .invalidNumber rest
      else numberEnd negative [c] rest
    else
      have h : (rest.dropWhile Char.isDigit).length ≤ rest.length :=
        (List.dropWhile_sublist Char.isDigit).length_le
      match numberEnd negative (c :: rest.takeWhile Char.isDigit)
          (rest.dropWhile Char.isDigit) with
      | .ok r => .ok ⟨r.value, r.rest, by
          have := r.shorter
          simp only [List.length_cons]; omega⟩
      | .error b => .error b

/-! ## Values -/

mutual

/-- A value; `room` more lists or objects may be opened inside one another. -/
def value (room : Nat) (cs : List Char) : Outcome Json cs.length :=
  have hs : (skipSpace cs).length ≤ cs.length := length_skipSpace_le cs
  match hc : skipSpace cs with
  | [] => breakNext .eofValue []
  | c :: rest =>
    have h : rest.length < cs.length := by
      rw [hc] at hs; exact Nat.lt_of_succ_le hs
    if c == 'n' then widen h (word .null ['u', 'l', 'l'] rest)
    else if c == 't' then widen h (word (.bool true) ['r', 'u', 'e'] rest)
    else if c == 'f' then widen h (word (.bool false) ['a', 'l', 's', 'e'] rest)
    else if c == '-' then widen (Nat.le_of_lt h) (numeral true rest)
    else if c == '"' then do
      let ⟨text, after, h'⟩ ← stringChars rest
      return ⟨.string (String.ofList text), after, by omega⟩
    else if c == '[' then
      match room with
      | 0 => breakNext .tooDeep (c :: rest)
      | room + 1 => do
        let ⟨items, after, h'⟩ ← elements room true rest
        return ⟨.array items, after, by omega⟩
    else if c == '\x7b' then
      match room with
      | 0 => breakNext .tooDeep (c :: rest)
      | room + 1 => do
        let ⟨_, after, h'⟩ ← members room true rest
        return ⟨.object, after, by omega⟩
    else if c.isDigit then
      widen (by rw [hc] at hs; exact hs) (numeral false (c :: rest))
    else breakNext .expectedValue (c :: rest)
termination_by 2 * cs.length
decreasing_by all_goals omega

/-- The elements of a list, up to its end, which is consumed. -/
def elements (room : Nat) (first : Bool) (cs : List Char) : Outcome (List Json) cs.length :=
  have hs : (skipSpace cs).length ≤ cs.length := length_skipSpace_le cs
  match hc : skipSpace cs with
  | [] => breakNext .eofList []
  | c :: rest =>
    have h : rest.length < cs.length := by
      rw [hc] at hs; exact Nat.lt_of_succ_le hs
    if c == ']' then .ok ⟨[], rest, h⟩
    else if first then do
      let ⟨j, after, h'⟩ ← value room cs
      let ⟨js, final, h''⟩ ← elements room false after
      return ⟨j :: js, final, by omega⟩
    else if c == ',' then
      match (skipSpace rest).head? with
      | none => breakNext .eofValue []
      | some ']' => breakNext .trailingComma (skipSpace rest)
      | some _ => do
        let ⟨j, after, h'⟩ ← value room rest
        let ⟨js, final, h''⟩ ← elements room false after
        return ⟨j :: js, final, by omega⟩
    else breakNext .expectedCommaOrBracket (c :: rest)
termination_by 2 * cs.length + 1
decreasing_by all_goals omega

/-- The members of an object, up to its end, which is consumed. -/
def members (room : Nat) (first : Bool) (cs : List Char) : Outcome Unit cs.length :=
  have hs : (skipSpace cs).length ≤ cs.length := length_skipSpace_le cs
  match hc : skipSpace cs with
  | [] => breakNext .eofObject []
  | c :: rest =>
    have h : rest.length < cs.length := by
      rw [hc] at hs; exact Nat.lt_of_succ_le hs
    if c == '\x7d' then .ok ⟨(), rest, h⟩
    else if first then
      if c == '"' then do
        let ⟨_, after, h'⟩ ← member room rest
        let ⟨_, final, h''⟩ ← members room false after
        return ⟨(), final, by omega⟩
      else breakNext .keyNotString (c :: rest)
    else if c == ',' then
      have hr : (skipSpace rest).length ≤ rest.length := length_skipSpace_le rest
      match hk : skipSpace rest with
      | [] => breakNext .eofValue []
      | k :: key =>
        have h' : key.length < rest.length := by
          rw [hk] at hr; exact Nat.lt_of_succ_le hr
        if k == '"' then do
          let ⟨_, after, h''⟩ ← member room key
          let ⟨_, final, h'''⟩ ← members room false after
          return ⟨(), final, by omega⟩
        else if k == '\x7d' then breakNext .trailingComma (k :: key)
        else breakNext .keyNotString (k :: key)
    else breakNext .expectedCommaOrBrace (c :: rest)
termination_by 2 * cs.length + 1
decreasing_by all_goals omega

/-- A member whose opening quote was consumed. -/
def member (room : Nat) (cs : List Char) : Outcome Unit cs.length := do
  let ⟨_, after, h⟩ ← stringChars cs
  have hs : (skipSpace after).length ≤ after.length := length_skipSpace_le after
  match hc : skipSpace after with
  | [] => breakNext .eofObject []
  | c :: rest =>
    have h' : rest.length < after.length := by
      rw [hc] at hs; exact Nat.lt_of_succ_le hs
    if c == ':' then
      let ⟨_, final, h''⟩ ← value room rest
      return ⟨(), final, by omega⟩
    else breakNext .expectedColon (c :: rest)
termination_by 2 * cs.length
decreasing_by all_goals omega

end

/-- How many lists and objects may be opened inside one another. -/
def maxNesting : Nat := 127

/-- The value of a text that is JSON and nothing else. -/
def parse (text : String) : Except Flaw Json :=
  match value maxNesting text.toList with
  | .error b => .error (b.flaw text)
  | .ok r =>
    match skipSpace r.rest with
    | [] => .ok r.value
    | c :: rest => .error (Break.flaw text ⟨.trailingCharacters, c :: rest, 1⟩)

end Json

end ExprShell
