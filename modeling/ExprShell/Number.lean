/-
Integers of the language. A number is a signed or an unsigned 64-bit word; the
unsigned form is meant for what the signed one cannot hold, and `Number.normal`
restores that rule. Two numbers are the same when their integer values are.
-/

namespace ExprShell

/-- An integer as the language stores it. -/
inductive Number where
  /-- A signed word. -/
  | int (n : Int64)
  /-- An unsigned word, normally above the signed range. -/
  | uint (n : UInt64)
  deriving Inhabited, DecidableEq, Repr

namespace Number

/-- The least integer of the signed range. -/
def minSigned : Int := -0x8000000000000000

/-- The greatest integer of the signed range. -/
def maxSigned : Int := 0x7fffffffffffffff

/-- The greatest integer of the unsigned range. -/
def maxUnsigned : Int := 0xffffffffffffffff

/-- The signed word of an integer, if there is one. -/
def signed? (n : Int) : Option Int64 :=
  if minSigned ≤ n ∧ n ≤ maxSigned then some (Int64.ofInt n) else none

/-- The unsigned word of an integer, if there is one. -/
def unsigned? (n : Int) : Option UInt64 :=
  if 0 ≤ n ∧ n ≤ maxUnsigned then some (UInt64.ofNat n.toNat) else none

/-- The integer that a number stands for. -/
def value : Number → Int
  | int n => n.toInt
  | uint n => n.toNat

/-- An unsigned word, kept as a signed one when it fits. -/
def normal (n : UInt64) : Number :=
  match signed? n.toNat with
  | some m => int m
  | none => uint n

/-- The number of an integer in normal form, if it is in range. -/
def ofInt? (n : Int) : Option Number :=
  match signed? n with
  | some m => some (int m)
  | none => (unsigned? n).map uint

/-- The word read as a signed one: an unsigned word above the signed range wraps around. -/
def truncate : Number → Int64
  | int n => n
  | uint n => n.toInt64

/-- The signed word, if the value has one. -/
def toSigned? : Number → Option Int64
  | int n => some n
  | uint n => signed? n.toNat

/-- The unsigned word, if the value is not negative. -/
def toUnsigned? : Number → Option UInt64
  | int n => unsigned? n.toInt
  | uint n => some n

def isZero (n : Number) : Bool :=
  n.value == 0

/-- Equality of the values, whatever the words. -/
def same (a b : Number) : Bool :=
  a.value == b.value

/-- Decimal text. -/
def text (n : Number) : String :=
  toString n.value

/-- Digits, possibly after a minus sign: the texts that are read as numbers. -/
def isLiteral (text : String) : Bool :=
  let digits := match text.toList with
    | '-' :: rest => rest
    | all => all
  !digits.isEmpty && digits.all Char.isDigit

/-- The natural number that a list of decimal digits denotes. -/
def ofDigits (digits : List Char) : Nat :=
  digits.foldl (fun n c => 10 * n + (c.toNat - '0'.toNat)) 0

/-- The number that a numeric literal denotes. A literal with a sign has to fit the signed
range, one without a sign the unsigned range. -/
def ofLiteral? (text : String) : Option Number :=
  match text.toList with
  | '-' :: digits => (signed? (-(ofDigits digits : Int))).map int
  | digits => (unsigned? (ofDigits digits)).map normal

end Number

end ExprShell
