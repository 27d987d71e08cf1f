import Descent.Decimal.Notation
import Descent.Scalar

/-! Double precision in which undefined numbers keep a sign. No comparison sees it, but `copySign`
does. -/
namespace Descent

structure Double where
  value : Float
  /-- The sign of an undefined number; it has no meaning for others. -/
  negative : Bool

namespace Double

/-- A number as it is read: if undefined, it is positive. -/
def ofFloat (x : Float) : Double := ⟨x, false⟩

/-- The result of an operation. An undefined operand is passed on with its sign, the first one if
both are; an operation that is undefined at its operands gives a negative result. Quotients by zero
and roots have a rule of their own. -/
def ofOperands (a b : Double) (x : Float) : Double :=
  ⟨x, if a.value.isNaN then a.negative else if b.value.isNaN then b.negative else true⟩

/-- The sign, of undefined numbers too. -/
def isNegative (a : Double) : Bool :=
  if a.value.isNaN then a.negative else a.value.toBits >>> 63 != 0

/-- The shortest text that reads back. -/
def text (a : Double) : String := Decimal.shortestText a.value

def neg (a : Double) : Double := ⟨-a.value, !a.negative⟩

def abs (a : Double) : Double := ⟨a.value.abs, false⟩

/-- A quotient. If it is undefined and the divisor is zero, it is positive, even where a negative
undefined number is divided. -/
def div (a b : Double) : Double :=
  let x := a.value / b.value
  if b.value == 0.0 then .ofFloat x else .ofOperands a b x

/-- A root. If it is undefined it is positive, even that of a negative undefined number. -/
def sqrt (a : Double) : Double := .ofFloat a.value.sqrt

theorem negative_abs (a : Double) : a.abs.negative = false := rfl

theorem negative_sqrt (a : Double) : a.sqrt.negative = false := rfl

theorem negative_neg_neg (a : Double) : a.neg.neg.negative = a.negative := by
  simp [neg]

end Double

instance : Scalar Double where
  add a b := .ofOperands a b (a.value + b.value)
  sub a b := .ofOperands a b (a.value - b.value)
  mul a b := .ofOperands a b (a.value * b.value)
  div := .div
  neg := .neg
  lt a b := a.value < b.value
  le a b := a.value ≤ b.value
  beq a b := a.value == b.value
  ofScientific m s e := .ofFloat (OfScientific.ofScientific m s e)
  abs := .abs
  sqrt := .sqrt
  copySign m s := if s.isNegative then m.abs.neg else m.abs
  isFinite a := a.value.isFinite
  decLt a b := inferInstanceAs (Decidable (a.value < b.value))
  decLe a b := inferInstanceAs (Decidable (a.value ≤ b.value))

end Descent
