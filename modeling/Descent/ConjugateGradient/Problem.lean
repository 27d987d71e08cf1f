import Descent.ConjugateGradient.Optimizer

/-! Problems, and their solution in one call. -/
namespace Descent
variable {K : Type} [Scalar K]

/-- A problem: functions of vectors of any length, and perhaps the dimension. -/
structure Problem (K : Type) where
  objective : Option (∀ n, Objective K n)
  gradient : Option (∀ n, Gradient K n)
  dim : Dimension

/-- What a solution tells. -/
structure Solution (K : Type) where
  x : List K
  value : K
  nit : Nat
  success : Bool
  status : Status
  gradientNorm : K
  nfev : Nat
  njev : Nat
  history : List (List K)

/-- What is told after that outcome: its value, or the one that is left when the budget is exhausted.
Any other fault remains one. -/
def concludeWith {E : Type} (tell : Option K → Bool → Traced E (Fault K) (Solution K))
    (left : Option K) : Except (Fault K) K → Traced E (Fault K) (Solution K)
  | .ok value => tell (some value) true
  | .error (.notConverged _) => tell left false
  | .error e => .fail e

section
variable {n : Nat}

/-- What can be told of an optimizer that has come to `x`. The gradient is evaluated once more, and
there must be a value and a status. -/
def Optimizer.tell (o : Optimizer K n) (x : Vector K n) (value : Option K) (success : Bool) :
    Traced (Event K n) (Fault K) (Solution K) := do
  let gradient ← ⟨o.setup.gradient x, [.gradient x]⟩
  match value, o.memory.status with
  | none, _ => .fail .valueMissing
  | some _, none => .fail .statusMissing
  | some value, some status => return {
      x := x.toList, value, nit := o.memory.nit, success, status
      gradientNorm := norm gradient.entries
      nfev := o.memory.nfev, njev := o.memory.njev + 1
      history := (o.memory.history.map fun h => h.iterates.toList.map (·.toList)).getD [] }

/-- What is told of a run. -/
def Report.conclude (r : Report K n) : Traced (Event K n) (Fault K) (Solution K) :=
  concludeWith (r.optimizer.tell r.point) r.optimizer.memory.fmin r.outcome

/-- Minimizes from the given point, and tells what has come of it. -/
def Optimizer.solve (o : Optimizer K n) (debug : Bool) (x : Vector K n) :
    Traced (Event K n) (Fault K) (Solution K) :=
  let r := o.minimizeFrom debug x
  ⟨r.conclude.outcome, r.events ++ r.conclude.events⟩

end

/-- An optimizer with its dimension. -/
abbrev SomeOptimizer (K : Type) [Scalar K] := (n : Nat) × Optimizer K n

namespace Problem

/-- An optimizer for the problem; the dimension is checked first. -/
def build (p : Problem K) (registry : Registry K) (draft : Except (Fault K) (Draft K)) :
    Except (Fault K) (SomeOptimizer K) :=
  match p.dim.toNat? with
  | .error e => .error (.dimension e)
  | .ok n => do
    return ⟨n, ← Optimizer.create registry (p.objective.map (· n)) (p.gradient.map (· n)) draft⟩

/-- As `build`, for a problem that must have a gradient and a dimension. -/
def optimizer (p : Problem K) (registry : Registry K)
    (draft : Except (Fault K) (Draft K)) : Except (Fault K) (SomeOptimizer K) :=
  match p.gradient, p.dim with
  | none, _ => .error (.problemWithoutGradient "ConjugateGradient")
  | some _, .missing => .error .problemWithoutDimension
  | some _, _ => p.build registry draft

/-- The optimizer for a problem whose dimension, if it has none, is the number of elements of the
starting point. -/
def optimizerAt (p : Problem K) (x₀ : Tensor K) (draft : Draft K) :
    Except (Fault K) (SomeOptimizer K) :=
  match p.gradient with
  | none => .error (.problemWithoutGradient "conjugate_gradient")
  | some _ =>
    let dim := match p.dim with
      | .missing => .whole x₀.size
      | d => d
    { p with dim }.build .standard (.ok draft)

/-- Solves a problem from the given point. -/
def solve (p : Problem K) (x₀ : Tensor K) (debug : Bool) (draft : Draft K) :
    Traced (Notice K) (Fault K) (Solution K) := do
  let ⟨n, o⟩ ← p.optimizerAt x₀ draft
  let x ← Candidate.toPoint n ⟨x₀, .array .float64 true⟩
  (o.solve debug x).filterMapEvents Event.notice?

end Problem
end Descent
