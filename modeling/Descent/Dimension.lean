import Descent.Binary.Rounding
import Descent.Decimal.Notation

/-! Dimensions as a user may state them. -/
namespace Descent

inductive Dimension where
  | missing
  | whole (n : Int)
  | real (x : Float)

namespace Dimension

inductive Invalid where
  | missing
  | notANumber
  | infinite
  | notPositive (given : Dimension)

def text : Dimension → String
  | missing => "None"
  | whole n => toString n
  | real x => Decimal.shortestText x

/-- The dimension as a natural number: a positive whole value is required. -/
def toNat? : Dimension → Except Invalid Nat
  | missing => .error .missing
  | whole n => if n ≤ 0 then .error (.notPositive (whole n)) else .ok n.toNat
  | real x =>
    if x.isNaN then .error .notANumber
    else if x.isInf then .error .infinite
    else if x.floor != x || x ≤ 0 then .error (.notPositive (real x))
    else .ok x.toUInt64.toNat

/-- Vectors of this length and beyond cannot be held. -/
def limit : Nat := 0x100000000

/-- The units of storage, each 1024 of the one before. -/
def units : List String := ["bytes", "KiB", "MiB", "GiB", "TiB", "PiB", "EiB"]

/-- Three digits of an amount from one to a thousand; the point is kept. -/
def threeDigits (r : Decimal.Ratio) : String :=
  let d := Decimal.rounded 3 r
  let ds := d.digits ++ List.replicate (3 - d.digits.length) '0'
  let whole := d.exponent.toNat + 1
  String.ofList (ds.take whole ++ '.' :: ds.drop whole)

/-- An amount of storage in the largest unit that it reaches, or comes to when it is rounded: in
three digits, or in four from a thousand on. Amounts are double-precision numbers. -/
def storageText (bytes : Nat) : String :=
  let bytes' := Binary.leading 53 bytes
  let k := bytes.log2 / 10
  let k := if Decimal.Ratio.nearest ⟨bytes', Nat.pow 1024 k⟩ = 1024 then k + 1 else k
  let amount : Decimal.Ratio := ⟨bytes', Nat.pow 1024 k⟩
  (if amount.nearest < 1000 then threeDigits amount else s!"{amount.nearest}.") ++ " " ++
    units.getD k ""

/-- Is the number of bytes of a vector of that length too large to be counted? -/
def uncountable (length : Nat) : Bool := 8 * length > 0x7fffffffffffffff

/-- Why a vector of that length cannot be held: it cannot be counted, its bytes cannot, or they are
too many. -/
def refusal (length : Nat) : String :=
  if length > 0x7fffffffffffffff then "Maximum allowed dimension exceeded"
  else if uncountable length then
    "array is too big; `arr.size * arr.dtype.itemsize` is larger than the maximum possible size."
  else
    "Unable to allocate " ++ storageText (8 * length) ++
      s!" for an array with shape ({length},) and data type float64"

end Dimension
end Descent
