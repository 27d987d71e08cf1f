/-! Why a run stops, and what it reports about its progress. -/
namespace Descent

/-- Why a run of the optimizer stopped. -/
inductive Status where
  | zeroGradient
  | functionTolerance
  | gradientTolerance
  | iterationLimit
deriving Repr, DecidableEq

namespace Status

def all : List Status := [zeroGradient, functionTolerance, gradientTolerance, iterationLimit]

def name : Status → String
  | zeroGradient => "zero_gradient"
  | functionTolerance => "ftol_satisfied"
  | gradientTolerance => "gtol_satisfied"
  | iterationLimit => "max_iter"

def message : Status → String
  | zeroGradient => "Previous gradient is exactly zero."
  | functionTolerance => "Function tolerance satisfied."
  | gradientTolerance => "Gradient tolerance satisfied."
  | iterationLimit => "Maximum iterations reached."

end Status

inductive Notice (K : Type) where
  /-- Zooming ended at this step without a flat slope. -/
  | zoomStopped (step : K)
  /-- The interval did not shrink to the tolerance. -/
  | toleranceMissed (iterations : Int)
  | started (method lineSearch : String) (value : K)
  | progressed (iteration : Nat) (value step test : K)
  | restarted (iteration : Nat)
  | exhausted (iterations : Int) (value : K)
  | finished (status : Status) (iteration : Nat) (value : K) (nfev njev : Nat)

end Descent
