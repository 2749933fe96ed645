/-
When a decimal is too large for a double. The digits of a decimal are collected into a 64-bit
significand for as long as they fit, what is left over moves the exponent, and the value is
the significand times a power of ten, both rounded to 53 bits before they are multiplied.
-/
import ExprShell.Number

namespace ExprShell.Json

/-- A significand and a power of ten; `full` once a digit did not fit. -/
structure Magnitude where
  significand : Nat := 0
  exponent : Int := 0
  full : Bool := false
  deriving Inhabited, DecidableEq, Repr

namespace Magnitude

/-- The significand with one more digit, if there is room. -/
def push? (m : Magnitude) (digit : Char) : Option Nat :=
  let next := 10 * m.significand + (digit.toNat - '0'.toNat)
  if (next : Int) ≤ Number.maxUnsigned then some next else none

/-- One more digit before the point. -/
def whole (m : Magnitude) (digit : Char) : Magnitude :=
  if m.full then { m with exponent := m.exponent + 1 }
  else
    match m.push? digit with
    | some next => { m with significand := next }
    | none => { m with exponent := m.exponent + 1, full := true }

/-- One more digit after the point. -/
def fraction (m : Magnitude) (digit : Char) : Magnitude :=
  match m.push? digit with
  | some next => { m with significand := next, exponent := m.exponent - 1 }
  | none => m

/-- The digits before and after the point. -/
def ofDigits (whole fraction : List Char) : Magnitude :=
  let m := whole.foldl Magnitude.whole {}
  (fraction.foldl (fun (m, open_) digit =>
    if open_ && (m.push? digit).isSome then (m.fraction digit, true) else (m, false))
    (m, true)).1

/-- A natural number rounded to 53 significant bits, a tie to the even neighbour. -/
def round53 (n : Nat) : Nat :=
  if n < 1 <<< 53 then n
  else
    let unit := 1 <<< (n.log2 - 52)
    let kept := n / unit
    let dropped := n % unit
    if 2 * dropped < unit || (2 * dropped == unit && kept % 2 == 0) then kept * unit
    else (kept + 1) * unit

/-- Products from here on round to no finite double. -/
def doubleLimit : Nat :=
  (1 <<< 1024) - (1 <<< 970)

/-- The value has no finite double. -/
def overflows (m : Magnitude) : Bool :=
  m.significand != 0 &&
    (308 < m.exponent ||
      (0 ≤ m.exponent &&
        doubleLimit ≤ round53 m.significand * round53 (Nat.pow 10 m.exponent.toNat)))

end Magnitude

end ExprShell.Json
