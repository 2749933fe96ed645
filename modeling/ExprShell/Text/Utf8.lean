/-
Bytes as text. Well-formed UTF-8 is decoded as it is; where bytes are malformed, each longest
start of a well-formed sequence, or single byte if there is none, becomes U+FFFD.
-/

namespace ExprShell.Text.Utf8

/-- The text of well-formed bytes. -/
def decode? (bytes : ByteArray) : Option String :=
  String.fromUTF8? bytes

/-- A byte that continues a sequence. -/
def isContinuation (b : UInt8) : Bool :=
  0x80 ≤ b && b ≤ 0xbf

/-- How many bytes follow a first byte, and the range of the second one. -/
def lead? (b : UInt8) : Option (Nat × UInt8 × UInt8) :=
  if b < 0x80 then some (0, 0, 0)
  else if 0xc2 ≤ b && b ≤ 0xdf then some (1, 0x80, 0xbf)
  else if b == 0xe0 then some (2, 0xa0, 0xbf)
  else if b == 0xed then some (2, 0x80, 0x9f)
  else if 0xe1 ≤ b && b ≤ 0xef then some (2, 0x80, 0xbf)
  else if b == 0xf0 then some (3, 0x90, 0xbf)
  else if 0xf1 ≤ b && b ≤ 0xf3 then some (3, 0x80, 0xbf)
  else if b == 0xf4 then some (3, 0x80, 0x8f)
  else none

/-- The bytes at the start of `rest` that belong to a sequence whose second byte lies in the
given range, at most `count` of them. -/
def tail (count : Nat) (low high : UInt8) (rest : List UInt8) : List UInt8 :=
  match count, rest with
  | 0, _ => []
  | _, [] => []
  | count + 1, b :: rest =>
    if low ≤ b && b ≤ high then b :: (rest.takeWhile isContinuation).take count else []

/-- The code point of a complete sequence. -/
def codePoint (first : UInt8) (following : List UInt8) : Nat :=
  let head := match following.length with
    | 0 => first.toNat
    | 1 => first.toNat % 32
    | 2 => first.toNat % 16
    | _ => first.toNat % 8
  following.foldl (fun n b => 64 * n + b.toNat % 64) head

/-- Characters of a list of bytes, malformed parts replaced. -/
def lossyChars : List UInt8 → List Char
  | [] => []
  | b :: rest =>
    match lead? b with
    | none => '\ufffd' :: lossyChars rest
    | some (count, low, high) =>
      let following := tail count low high rest
      let c := if following.length = count then Char.ofNat (codePoint b following) else '\ufffd'
      c :: lossyChars (rest.drop following.length)
termination_by bytes => bytes.length
decreasing_by
  · simp
  · simp only [List.length_drop, List.length_cons]; omega

/-- The text of any bytes. -/
def decodeLossy (bytes : ByteArray) : String :=
  match decode? bytes with
  | some text => text
  | none => String.ofList (lossyChars bytes.toList)

end ExprShell.Text.Utf8
