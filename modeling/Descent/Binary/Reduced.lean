import Descent.Binary.Rounding
import Descent.Scalar

/-! Numbers of less than single precision: each operation is carried out in single precision, and
its result is rounded. -/
namespace Descent.Binary

/-- The signs of a format. -/
inductive Signs where
  | all
  /-- Zero has none. -/
  | nonzero
  /-- All numbers are positive. Half the least that has all its digits stands for zero. -/
  | none

/-- A binary floating-point format. -/
structure Format where
  /-- The digits of a significand. -/
  digits : Nat
  /-- The least exponent of a number that has all its digits. -/
  low : Int
  largest : Float32
  /-- What a number beyond the largest becomes when it has been rounded. -/
  overflow : Float32
  signs : Signs

namespace Format

/-- Half precision. -/
def half : Format := ⟨11, -14, 65504, 1.0 / 0.0, .all⟩

/-- The range of single precision with fewer digits. -/
def wide : Format := ⟨8, -126, 3.3895313892515355e38, 1.0 / 0.0, .all⟩

/-- Significand and exponent of the finite single-precision number with these bits. -/
private def decode (bits : Nat) : Nat × Int :=
  let field : Nat := bits / 0x800000 % 0x100
  let fraction : Nat := bits % 0x800000
  if field = 0 then (fraction, -149) else (fraction + 0x800000, (field : Int) - 150)

/-- The nearest number of the format; a half goes to the even neighbour. -/
def round (f : Format) (x : Float32) : Float32 :=
  if x.isNaN then x
  else
    let (m, q) := decode x.toBits.toNat
    let places := max (excess f.digits m) (f.low + 1 - f.digits - q).toNat
    let y := (Float32.ofNat (shorten places m)).scaleB (q + places)
    let y := if y > f.largest then f.overflow else y
    match f.signs with
    | .all => copySign y x
    | .nonzero => if y == 0.0 then y else copySign y x
    | .none => if y == 0.0 then Float32.scaleB 1.0 (f.low - 1) else y

end Format

/-- A number of a format. -/
structure Reduced (f : Format) where
  value : Float32

namespace Reduced
variable {f : Format}

def ofFloat32 (x : Float32) : Reduced f := ⟨f.round x⟩

end Reduced

instance (f : Format) : Scalar (Reduced f) where
  add a b := .ofFloat32 (a.value + b.value)
  sub a b := .ofFloat32 (a.value - b.value)
  mul a b := .ofFloat32 (a.value * b.value)
  div a b := .ofFloat32 (a.value / b.value)
  neg a := ⟨-a.value⟩
  lt a b := a.value < b.value
  le a b := a.value ≤ b.value
  beq a b := a.value == b.value
  ofScientific m s e := .ofFloat32 (OfScientific.ofScientific m s e)
  abs a := ⟨abs a.value⟩
  sqrt a := .ofFloat32 (sqrt a.value)
  copySign m s := ⟨copySign m.value s.value⟩
  isFinite a := isFinite a.value
  decLt a b := inferInstanceAs (Decidable (a.value < b.value))
  decLe a b := inferInstanceAs (Decidable (a.value ≤ b.value))

end Descent.Binary
