/-
Arithmetic on numbers, checked. Operands are combined from the left as signed words; if that
leaves the signed range, or an operand has no signed word, they are combined as unsigned words,
which needs all of them to be non-negative. What neither way can hold is an overflow.
-/
import ExprShell.Node.Access

namespace ExprShell

/-- The operations of arithmetic. -/
inductive Operation where
  | add
  | sub
  | mul
  | div
  | rem
  deriving Inhabited, DecidableEq, Repr

namespace Operation

def symbol : Operation → String
  | add => "+"
  | sub => "-"
  | mul => "*"
  | div => "/"
  | rem => "%"

/-- The result on integers; quotients go toward zero, and remainders take the sign of the
dividend. -/
def exact : Operation → Int → Int → Int
  | add, a, b => a + b
  | sub, a, b => a - b
  | mul, a, b => a * b
  | div, a, b => a.tdiv b
  | rem, a, b => a.tmod b

/-- The result of no operands. -/
def unit? : Operation → Option Int64
  | add => some 0
  | mul => some 1
  | sub | div | rem => none

/-- The least number of operands. -/
def leastArgs : Operation → Nat
  | add | mul => 0
  | sub => 1
  | div | rem => 2

def divides : Operation → Bool
  | div | rem => true
  | add | sub | mul => false

/-- The result as a signed word. The remainder of the least word by -1 counts as out of
range, like the quotient. -/
def signed (op : Operation) (a b : Int64) : Option Int64 :=
  if op.divides && (b == 0 || (a == Int64.minValue && b == -1)) then none
  else Number.signed? (op.exact a.toInt b.toInt)

/-- The result as an unsigned word. -/
def unsigned (op : Operation) (a b : UInt64) : Option UInt64 :=
  if op.divides && b == 0 then none
  else Number.unsigned? (op.exact a.toNat b.toNat)

/-- Combines words from the left, as long as every result is a word. -/
def combine {α : Type} (f : α → α → Option α) : List α → Option α
  | [] => none
  | a :: rest => rest.foldlM f a

/-- Combines the operands as signed words. -/
def foldSigned (op : Operation) (operands : List Number) : Option Number := do
  let words ← operands.mapM Number.toSigned?
  let result ← combine op.signed words
  return .int result

/-- Combines the operands as unsigned words. -/
def foldUnsigned (op : Operation) (operands : List Number) : Option Number := do
  let words ← operands.mapM Number.toUnsigned?
  let result ← combine op.unsigned words
  return .normal result

/-- Combines the operands one way or the other. -/
def fold (op : Operation) (operands : List Number) : Except Fault Number :=
  match (op.foldSigned operands).or (op.foldUnsigned operands) with
  | some n => .ok n
  | none => .error (.arithmeticOverflow op.symbol)

/-- The result of an operation on numbers. A zero divisor is found before anything is
computed, and a single operand of a difference is negated. -/
def onNumbers (op : Operation) (operands : List Number) : Except Fault Number :=
  match operands with
  | [] =>
    match op.unit? with
    | some n => .ok (.int n)
    | none => op.fold []
  | first :: rest =>
    if op.divides && rest.any Number.isZero then .error .divisionByZero
    else if op = .sub && rest.isEmpty then op.fold [.int 0, first]
    else op.fold (first :: rest)

/-- The result of an operation on any arguments. -/
def apply (op : Operation) (args : List Node) : Except Fault Node :=
  if args.length < op.leastArgs then
    .error (.invalidArguments op.symbol (.tooFew op.leastArgs args.length))
  else do
    let operands ← Node.asNumbers args
    let n ← op.onNumbers operands
    return .ofNumber n

end Operation

/-- The order relations. -/
inductive Comparison where
  | lt
  | gt
  | le
  | ge
  deriving Inhabited, DecidableEq, Repr

namespace Comparison

def symbol : Comparison → String
  | lt => "<"
  | gt => ">"
  | le => "<="
  | ge => ">="

def holds : Comparison → Ordering → Bool
  | lt, o => o == .lt
  | gt, o => o == .gt
  | le, o => o != .gt
  | ge, o => o != .lt

/-- Compares two numbers by value, or two strings by code points. -/
def apply (c : Comparison) (a b : Node) : Except Fault Node :=
  match a, b with
  | .number _ n, .number _ m => .ok (.ofBool (c.holds (compare n.value m.value)))
  | .string _ s, .string _ t => .ok (.ofBool (c.holds (compare s t)))
  | .number .., other => .error (.wrongKind "number" other)
  | .string .., other => .error (.wrongKind "string" other)
  | other, _ => .error (.wrongKind "number or string" other)

end Comparison

end ExprShell
