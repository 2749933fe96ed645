/-
Octets as text. A text of octets has one character for each octet, the one with the octet's
number; programs that do not care for encodings work on such texts.
-/

namespace ExprShell.Text

/-- The octets of bytes. -/
def octetsOfBytes (bytes : ByteArray) : String :=
  String.ofList (bytes.toList.map fun b => Char.ofNat b.toNat)

/-- The octets of the UTF-8 encoding of a text. -/
def octets (text : String) : String :=
  octetsOfBytes text.toUTF8

/-- The bytes of a text of octets. -/
def bytesOfOctets (text : String) : ByteArray :=
  ⟨(text.toList.map fun c => UInt8.ofNat c.toNat).toArray⟩

end ExprShell.Text
