import Descent.Binary.Reduced
import Descent.Double
import Descent.Formula.Basic

/-! Powers: small ones are products, the others are taken at once. -/
namespace Descent

/-- How powers are taken. -/
structure Powers (K : Type) where
  power : K → Nat → K
  /-- So many times a number. -/
  multiple : Nat → K → K

namespace Powers
variable {K : Type} [Scalar K]

/-- Powers up to a greatest exponent are products, and others are taken by `pow`. -/
def ofPow (products : Nat) (pow : K → Nat → K) (multiple : Nat → K → K) : Powers K where
  power a n := if n = 0 then 1.0 else if n ≤ products then Formula.powerOf a n else pow a n
  multiple := multiple

theorem power_zero (products : Nat) (pow : K → Nat → K) (multiple : Nat → K → K) (a : K) :
    (ofPow products pow multiple).power a 0 = 1.0 := rfl

/-- Powers in double precision. -/
def double : Powers Double :=
  ofPow 3 (fun a n => .ofFloat (a.value.pow (.ofNat n))) (fun n a => .ofFloat (.ofNat n * a.value))

/-- Powers in single precision, which are taken in double precision. -/
def single : Powers Float32 :=
  ofPow 3 (fun a n => (a.toFloat.pow (.ofNat n)).toFloat32) (fun n a => .ofNat n * a)

/-- Powers in a format, which are taken in single precision. The exponent is a number of the
format. -/
def reduced (products : Nat) (f : Binary.Format) : Powers (Binary.Reduced f) :=
  ofPow products (fun a n => .ofFloat32 (a.value.pow (f.round (.ofNat n))))
    (fun n a => .ofFloat32 (.ofNat n * a.value))

end Powers
end Descent
