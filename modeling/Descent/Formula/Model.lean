import Descent.ConjugateGradient.Problem
import Descent.Double
import Descent.Formula.Derivative
import Descent.Formula.Precision

/-! Problems given by formulas alone: the gradient is derived. -/
namespace Descent

/-- A function given by formulas for the entries of its value, which are to be laid out in a
shape. -/
structure Model where
  entries : List (Formula Double)
  shape : Shape
  dim : Nat
  type : FloatType

namespace Model

inductive Fault where
  | dimension (given : Int)
  | numberType (name : String)
  /-- The value has no entries. -/
  | noValues
  /-- The entries do not fill the shape. -/
  | layout (shape : Shape) (count : Nat)
  | manyValues (count : Nat)
  | valueShape (shape : Shape)
  | componentMissing (index : Int) (size : Nat)
  /-- The type lacks an operation. -/
  | noOperation (name type : String)
  /-- Arrays of the type cannot be handed on. -/
  | confined (type : String)
  /-- The dimension is too large for a vector. -/
  | tooLong (dim : Nat)

def Fault.message : Fault → String
  | dimension given => s!"dim must be positive, got {given}"
  | numberType name => "dtype must be a floating point dtype, got torch." ++ name
  | noValues => "stack expects a non-empty TensorList"
  | layout s count =>
    "shape '[" ++ ", ".intercalate (s.map toString) ++ s!"]' is invalid for input of size {count}"
  | manyValues count => s!"a Tensor with {count} elements cannot be converted to Scalar"
  | valueShape s => "objective must return a scalar tensor, got shape " ++ s.text
  | componentMissing index size =>
    s!"index {index} is out of bounds for dimension 0 with size {size}"
  | noOperation name type => "\"" ++ name ++ "\" not implemented for '" ++ type ++ "'"
  | confined type => "Got unsupported ScalarType " ++ type
  | tooLong dim => Dimension.refusal dim

/-- The dimension is checked before the number type. -/
def create (entries : List (Formula Double)) (shape : Shape) (dim : Int) (type : String) :
    Except Fault Model :=
  if dim ≤ 0 then .error (.dimension dim)
  else match FloatType.ofName? type with
    | none => .error (.numberType (FloatType.fullName type))
    | some type => .ok ⟨entries, shape, dim.toNat, type⟩

section
variable (p : Precision) (f : Formula Double) (x : Array Double)

/-- A formula at a point, evaluated in the given precision. -/
def evalIn : Double :=
  p.toDouble ((f.map (p.ofDouble ·)).evalWith p.powers.power (x.map (p.ofDouble ·)))

/-- Does the value come from the point, in the given precision? -/
def dependsIn : Bool := (f.map (p.ofDouble ·)).dependsAt p.powers (x.map (p.ofDouble ·))

/-- The gradient, evaluated in the given precision. It is of the length of the point; but where the
value does not depend on the point it is zero and has the dimension of the model. -/
def gradientIn (dim : Nat) : Array Double :=
  if dependsIn p f x then
    ((f.map (p.ofDouble ·)).gradient p.powers (x.map (p.ofDouble ·))).map (p.toDouble ·)
  else Array.replicate dim 0.0

end

/-- The formulas of the value, if they can be evaluated at a point of that size and laid out. -/
def valueAt (m : Model) (size : Nat) : Except Fault (List (Formula Double)) :=
  if m.type.support = .none then .error (.noOperation "copy_" m.type.tag)
  else match m.entries.findSome? (Formula.obstacle? size m.type.computes none) with
    | some (.component index size) => .error (.componentMissing index size)
    | some (.operation name) => .error (.noOperation name m.type.tag)
    | none =>
      if m.entries.isEmpty then .error .noValues
      else if m.entries.length ≠ m.shape.volume then .error (.layout m.shape m.entries.length)
      else .ok m.entries

def eval (m : Model) (x : Array Double) : Except Fault Double := do
  match ← m.valueAt x.size with
  | [f] => return evalIn m.type.precision f x
  | fs => .error (.manyValues fs.length)

def gradient (m : Model) (x : Array Double) : Except Fault (Array Double) := do
  match ← m.valueAt x.size with
  | [f] =>
    if dependsIn m.type.precision f x then
      if f.multiplies && !m.type.computes then
        .error (.noOperation "mul_cpu_reduced_float" m.type.tag)
      else if m.type.confined then .error (.confined m.type.tag)
    else if m.dim ≥ Dimension.limit then .error (.tooLong m.dim)
    return gradientIn m.type.precision f x m.dim
  | _ => .error (.valueShape m.shape)

/-- The problem of minimizing a formula, evaluated in the given precision. -/
def problem (m : Model) (f : Formula Double) : Problem Double where
  objective := some fun _ x => .ok (evalIn m.type.precision f x.toArray)
  gradient := some fun _ x =>
    let g := gradientIn m.type.precision f x.toArray m.dim
    .ok (.ofVector ⟨g, rfl⟩)
  dim := .whole m.dim

/-- The formula of the value, if it and its gradient can be had at a point. -/
def formulaAt (m : Model) (x : Array Double) : Except Fault (Formula Double) := do
  discard (m.eval x)
  discard (m.gradient x)
  match m.entries with
  | [f] => return f
  | _ => .error (.valueShape m.shape)

/-- Solves the problem. A model that cannot be evaluated at the starting point fails there, once
the settings and the point have been accepted. -/
def solve (m : Model) (x₀ : Tensor Double) (debug : Bool) (draft : Draft Double) :
    Traced (Notice Double) (Fault ⊕ Descent.Fault Double) (Solution Double) :=
  match m.formulaAt x₀.entries.toArray with
  | .ok f =>
    let r := (m.problem f).solve x₀ debug draft
    ⟨r.outcome.mapError .inr, r.events⟩
  | .error fault =>
    let accepted := do
      let ⟨n, _⟩ ← (m.problem (.const 0.0)).optimizerAt x₀ draft
      discard (Candidate.toPoint n ⟨x₀, .array .float64 true⟩)
    match accepted with
    | .error e => .fail (.inr e)
    | .ok () => .fail (.inl fault)

end Model
end Descent
