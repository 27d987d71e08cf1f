import Descent.Line

/-! Formulas for objectives. -/
namespace Descent

inductive Formula (K : Type) where
  | const (c : K)
  /-- A component of the point; negative indices count from its end. -/
  | component (i : Int)
  | add (a b : Formula K)
  | sub (a b : Formula K)
  | mul (a b : Formula K)
  | div (a b : Formula K)
  | neg (a : Formula K)
  | abs (a : Formula K)
  | sqrt (a : Formula K)
  | power (a : Formula K) (n : Nat)
  | min (a b : Formula K)
  | max (a b : Formula K)
  /-- The third formula where the first is less than the second, else the fourth. -/
  | ifLess (a b c d : Formula K)
  /-- Brackets, which part a sum from one that it begins, and a product likewise. -/
  | group (a : Formula K)

namespace Formula
variable {K L : Type}

/-- The place that an index names in a list of that size. -/
def place? (size : Nat) (i : Int) : Option Nat :=
  let k := if i < 0 then i + size else i
  if 0 ≤ k ∧ k < size then some k.toNat else none

theorem place?_natCast {size k : Nat} (h : k < size) : place? size k = some k := by
  simp [place?, h, show ¬ (k : Int) < 0 by omega]

/-- A power multiplied from the left; the exponent zero counts as one. -/
def powerOf [Mul K] (a : K) : Nat → K
  | 0 => a
  | 1 => a
  | n + 2 => powerOf a (n + 1) * a

/-- The value at a point, with powers taken by `pow`. A component that the point lacks counts as
zero; division never fails. -/
def evalWith [Scalar K] (pow : K → Nat → K) (x : Array K) : Formula K → K
  | const c => c
  | component i => ((place? x.size i).bind (x[·]?)).getD 0.0
  | add a b => a.evalWith pow x + b.evalWith pow x
  | sub a b => a.evalWith pow x - b.evalWith pow x
  | mul a b => a.evalWith pow x * b.evalWith pow x
  | div a b => a.evalWith pow x / b.evalWith pow x
  | neg a => -a.evalWith pow x
  | abs a => Scalar.abs (a.evalWith pow x)
  | sqrt a => Scalar.sqrt (a.evalWith pow x)
  | power a n => pow (a.evalWith pow x) n
  | min a b => Scalar.smaller (a.evalWith pow x) (b.evalWith pow x)
  | max a b => Scalar.larger (a.evalWith pow x) (b.evalWith pow x)
  | ifLess a b c d =>
    if a.evalWith pow x < b.evalWith pow x then c.evalWith pow x else d.evalWith pow x
  | group a => a.evalWith pow x

/-- The value at a point, with powers as products. -/
def eval [Scalar K] (x : Array K) (f : Formula K) : K := f.evalWith powerOf x

/-- Does the point have the components that the value comes from? Of a choice only the formula that
is taken counts. -/
def definedAt [Scalar K] (x : Array K) : Formula K → Bool
  | const _ => true
  | component i => (place? x.size i).isSome
  | add a b | sub a b | mul a b | div a b | min a b | max a b => a.definedAt x && b.definedAt x
  | neg a | abs a | sqrt a | power a _ | group a => a.definedAt x
  | ifLess a b c d =>
    a.definedAt x && b.definedAt x && if a.eval x < b.eval x then c.definedAt x else d.definedAt x

/-- The same formula with other constants. -/
def map (f : K → L) : Formula K → Formula L
  | const c => const (f c)
  | component i => component i
  | add a b => add (a.map f) (b.map f)
  | sub a b => sub (a.map f) (b.map f)
  | mul a b => mul (a.map f) (b.map f)
  | div a b => div (a.map f) (b.map f)
  | neg a => neg (a.map f)
  | abs a => abs (a.map f)
  | sqrt a => sqrt (a.map f)
  | power a n => power (a.map f) n
  | min a b => min (a.map f) (b.map f)
  | max a b => max (a.map f) (b.map f)
  | ifLess a b c d => ifLess (a.map f) (b.map f) (c.map f) (d.map f)
  | group a => group (a.map f)

/-- A formula as a function of vectors. It has no value where the point lacks a component. -/
def toObjective [Scalar K] (f : Formula K) (n : Nat) : Objective K n := fun x =>
  if f.definedAt x.toArray then .ok (f.eval x.toArray) else .error .entryMissing

/-- A formula as a function of one number. -/
def toFunction [Scalar K] (f : Formula K) (t : K) : Except (Fault K) K := f.toObjective 1 #v[t]

end Formula

/-- Formulas for the entries of an array-valued function. -/
structure FormulaArray (K : Type) where
  shape : Shape
  entries : Vector (Formula K) shape.volume

namespace FormulaArray
variable {K : Type}

/-- An array of formulas as a function of vectors. It has no value where the point lacks a
component. -/
def toGradient [Scalar K] (f : FormulaArray K) (n : Nat) : Gradient K n := fun x =>
  if f.entries.toList.all (·.definedAt x.toArray) then
    .ok ⟨f.shape, f.entries.map (Formula.eval x.toArray)⟩
  else .error .entryMissing

end FormulaArray
end Descent
