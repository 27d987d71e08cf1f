import Descent.Formula.Powers

/-! The floating-point types that formulas can be evaluated in, and their names. -/
namespace Descent

inductive Precision where
  | double
  | single
  /-- A format, in which powers up to that exponent are products. -/
  | reduced (f : Binary.Format) (products : Nat)

namespace Precision

def Number : Precision → Type
  | double => Double
  | single => Float32
  | reduced f _ => Binary.Reduced f

instance (p : Precision) : Scalar p.Number :=
  match p with
  | double => inferInstanceAs (Scalar Double)
  | single => inferInstanceAs (Scalar Float32)
  | reduced f _ => inferInstanceAs (Scalar (Binary.Reduced f))

/-- The number nearest to a double. Formats are reached by way of single precision. -/
def ofDouble (x : Double) : (p : Precision) → p.Number
  | double => x
  | single => x.value.toFloat32
  | reduced _ _ => .ofFloat32 x.value.toFloat32

def toDouble : (p : Precision) → p.Number → Double
  | double, x => x
  | single, x => .ofFloat (Float32.toFloat x)
  | reduced f _, x => .ofFloat (Binary.Reduced.value (f := f) x).toFloat

def powers : (p : Precision) → Powers p.Number
  | double => .double
  | single => .single
  | reduced f products => .reduced products f

end Precision

/-- What can be done with the numbers of a type. -/
inductive Support where
  | full
  /-- They can be held and read, but not computed with. -/
  | storage
  /-- They cannot even be made. -/
  | none
deriving DecidableEq

/-- A floating-point type. -/
structure FloatType where
  precision : Precision
  /-- What errors call the type. -/
  tag : String
  /-- Can its arrays not be handed on? -/
  confined : Bool
  support : Support

namespace FloatType

private def undefined : Float32 := 0.0 / 0.0

private def infinite : Float32 := 1.0 / 0.0

/-- A type of eight bits. -/
def compact (f : Binary.Format) (tag : String) : FloatType := ⟨.reduced f 3, tag, true, .storage⟩

def named : List (String × FloatType) := [
  ("float64", ⟨.double, "Double", false, .full⟩),
  ("float32", ⟨.single, "Float", false, .full⟩),
  ("float16", ⟨.reduced .half 1, "Half", false, .full⟩),
  ("bfloat16", ⟨.reduced .wide 3, "BFloat16", true, .full⟩),
  ("float8_e4m3fn", compact ⟨4, -6, 448, 448, .all⟩ "Float8_e4m3fn"),
  ("float8_e5m2", compact ⟨3, -14, 57344, infinite, .all⟩ "Float8_e5m2"),
  ("float8_e4m3fnuz", compact ⟨4, -7, 240, undefined, .nonzero⟩ "Float8_e4m3fnuz"),
  ("float8_e5m2fnuz", compact ⟨3, -15, 57344, undefined, .nonzero⟩ "Float8_e5m2fnuz"),
  ("float8_e8m0fnu", compact ⟨1, -126, 1.7014118346046923e38, undefined, .none⟩ "Float8_e8m0fnu"),
  ("float4_e2m1fn_x2", ⟨.reduced ⟨2, 0, 6, 6, .all⟩ 3, "Float4_e2m1fn_x2", true, .none⟩)]

/-- Second names of types. -/
def aliases : List (String × String) := [
  ("float", "float32"), ("double", "float64"), ("half", "float16"), ("short", "int16"),
  ("int", "int32"), ("long", "int64"), ("chalf", "complex32"), ("cfloat", "complex64"),
  ("cdouble", "complex128")]

def fullName (name : String) : String := (aliases.lookup name).getD name

def computes (t : FloatType) : Bool := t.support = .full

/-- The type of that name, if it is a floating-point type. -/
def ofName? (name : String) : Option FloatType := named.lookup (fullName name)

end FloatType

/-- What stops the evaluation of a formula. -/
inductive Obstacle where
  /-- The point has no such component. -/
  | component (index : Int) (size : Nat)
  | operation (name : String)

namespace Formula

/-- Formulas of several operands, all of which are had before they are combined. -/
inductive Chain where
  | sum
  | product
deriving DecidableEq

/-- The first obstacle on the way to the value at a point of that size, where operations may be
missing. A sum that begins another one is a part of it, and so is a product. -/
def obstacle? {K : Type} (size : Nat) (computes : Bool) (inside : Option Chain) :
    Formula K → Option Obstacle
  | const _ => none
  | component i => if (place? size i).isSome then none else some (.component i size)
  | add a b =>
    a.obstacle? size computes (some .sum) <|> b.obstacle? size computes none <|>
      if inside = some .sum then none else missing "add_stub"
  | mul a b =>
    a.obstacle? size computes (some .product) <|> b.obstacle? size computes none <|>
      if inside = some .product then none else missing "mul_cpu_reduced_float"
  | sub a b =>
    a.obstacle? size computes none <|> b.obstacle? size computes none <|> missing "add_stub"
  | div a b =>
    a.obstacle? size computes none <|> b.obstacle? size computes none <|>
      missing "div_cpu_reduced_float"
  | neg a => a.obstacle? size computes none <|> missing "neg_cpu"
  | abs a => a.obstacle? size computes none <|> missing "abs_cpu"
  | sqrt a => a.obstacle? size computes none <|> missing "sqrt_cpu"
  | power a n => a.obstacle? size computes none <|> if n ≤ 1 then none else missing "pow"
  | min a b | max a b | ifLess a b _ _ =>
    a.obstacle? size computes none <|> b.obstacle? size computes none <|> missing "lt_cpu"
  | group a => a.obstacle? size computes none
where
  missing (name : String) : Option Obstacle := if computes then none else some (.operation name)

/-- Does the derivative of a formula that takes no other operations need a product? A first power
has one. -/
def multiplies {K : Type} : Formula K → Bool
  | power _ 1 => true
  | power a _ | group a => a.multiplies
  | _ => false

end Formula

end Descent
