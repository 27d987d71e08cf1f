import Descent.Fault
import Descent.Notice
import Descent.Traced

/-! Functions along a line, and searches that probe them. -/
namespace Descent
variable {K : Type} [Scalar K] {n : Nat}

/-- An objective fails where it has no value. -/
abbrev Objective (K : Type) (n : Nat) := Vector K n → Except (Fault K) K

/-- A gradient may fail, and it may have any shape; what needs a vector checks it. -/
abbrev Gradient (K : Type) (n : Nat) := Vector K n → Except (Fault K) (Tensor K)

structure Line (K : Type) where
  value : K → Except (Fault K) K
  slope : K → Except (Fault K) K

inductive Probe (K : Type) where
  | value (t : K)
  | slope (t : K)
  | notice (n : Notice K)

def Probe.notice? : Probe K → Option (Notice K)
  | notice m => some m
  | _ => none

abbrev Search (K α : Type) := Traced (Probe K) (Fault K) α

/-- The product of a gradient with a direction, summed over the last axis: only for a vector it is a
number. -/
def slopeAlong (g : Tensor K) (d : Vector K n) : Except (Fault K) K :=
  match g.toVector? n with
  | some v => .ok (dot v d)
  | none =>
    if g.shape.getLastD n = n then .error .slopeNotScalar else .error (.misaligned g.shape n)

namespace Line

/-- The line through `x` along `d`, with slopes taken along `p`. -/
def ofFunctions {m : Nat} (f : Objective K n) (g : Gradient K n) (x d : Vector K n)
    (p : Vector K m) : Line K where
  value t := f (along x d t)
  slope t := do slopeAlong (← g (along x d t)) p

/-- The line through `x` along `d`. -/
def through (f : Objective K n) (g : Gradient K n) (x d : Vector K n) : Line K :=
  ofFunctions f g x d d

def valueAt (l : Line K) (t : K) : Search K K := ⟨l.value t, [.value t]⟩

def slopeAt (l : Line K) (t : K) : Search K K := ⟨l.slope t, [.slope t]⟩

end Line

/-- A point of a line: its abscissa and the value there. -/
structure Sample (K : Type) where
  step : K
  value : K

/-- A sample with the slope there. -/
structure Tangent (K : Type) extends Sample K where
  slope : K

/-- The outcome of a search: where it ended, and what it spent. -/
structure Step (K : Type) extends Sample K where
  nfev : Nat
  njev : Nat

end Descent
