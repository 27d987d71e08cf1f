/-! The arithmetic of the algorithms, on numbers and on vectors, with an instance for single
precision. -/
namespace Descent

/-- The operations the algorithms use. No law is assumed, so that one definition serves floating
point, where a comparison with an undefined value is false, and an exact ordered field. -/
class Scalar (K : Type) extends
    Add K, Sub K, Mul K, Div K, Neg K, LT K, LE K, BEq K, OfScientific K where
  abs : K → K
  sqrt : K → K
  /-- The magnitude of the first argument with the sign of the second. -/
  copySign : K → K → K
  isFinite : K → Bool
  decLt : DecidableLT K
  decLe : DecidableLE K

attribute [reducible, instance] Scalar.decLt Scalar.decLe

instance : Scalar Float32 where
  abs := Float32.abs
  sqrt := Float32.sqrt
  copySign m s := if s.toBits >>> 31 == 0 then m.abs else -m.abs
  isFinite := Float32.isFinite
  decLt := inferInstance
  decLe := inferInstance

namespace Scalar
variable {K : Type} [Scalar K]

/-- The second argument if it is greater, else the first: an undefined first argument stays. -/
def larger (a b : K) : K := if b > a then b else a

/-- The second argument if it is less, else the first. -/
def smaller (a b : K) : K := if b < a then b else a

/-- The greater argument, or an undefined one if there is one. -/
def peak (a b : K) : K := if a ≥ b then a else if a == a then b else a

end Scalar

export Scalar (abs sqrt copySign isFinite larger smaller peak)

variable {K : Type} [Scalar K] {n : Nat}

def zeros (n : Nat) : Vector K n := Vector.replicate n 0.0

/-- Products are added from the left, starting at zero. -/
def dot (u v : Vector K n) : K := (Vector.zipWith (· * ·) u v).foldl (· + ·) 0.0

def norm (u : Vector K n) : K := sqrt (dot u u)

def scale (t : K) (v : Vector K n) : Vector K n := v.map (t * ·)

/-- The point at abscissa `t` of the line through `x` along `d`. -/
def along (x d : Vector K n) (t : K) : Vector K n := x + scale t d

end Descent
