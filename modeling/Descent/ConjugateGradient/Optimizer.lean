import Descent.ConjugateGradient.Iteration

/-! Optimizers: what they keep between runs, and the points they accept. -/
namespace Descent
variable {K : Type} [Scalar K] {n : Nat}

/-- The number type of an array. -/
inductive NumberType where
  | float64
  | float32
  | int64
  | int32
deriving DecidableEq

def NumberType.name : NumberType → String
  | float64 => "float64"
  | float32 => "float32"
  | int64 => "int64"
  | int32 => "int32"

inductive Container where
  | list
  | array (type : NumberType) (writeable : Bool)

/-- What is handed in as the point to start from. -/
structure Candidate (K : Type) where
  values : Tensor K
  container : Container

namespace Candidate

/-- The vector of a writeable double-precision array of length `n`. -/
def toPoint (n : Nat) (c : Candidate K) : Except (Fault K) (Vector K n) :=
  match c.container, c.values.toVector? n with
  | .list, _ => .error .pointNotArray
  | .array _ _, none => .error (.pointShape n c.values.shape)
  | .array type writeable, some x =>
    if type ≠ .float64 then .error (.pointType type.name)
    else if !writeable then .error .pointReadOnly
    else .ok x

end Candidate

/-- What an optimizer keeps between runs. -/
structure Memory (K : Type) (n : Nat) where
  nfev : Nat
  njev : Nat
  nit : Nat
  fmin : Option K
  status : Option Status
  history : Option (History K n)
  search : LineSearch K

def Memory.initial (s : Strategy K) : Memory K n :=
  ⟨0, 0, 0, none, none, none, .ofStrategy s⟩

structure Optimizer (K : Type) [Scalar K] (n : Nat) where
  setup : Setup K n
  memory : Memory K n

/-- The status that is left when a run ends in this way. -/
def Exit.status : Exit K → Option Status
  | converged s _ => some s
  | exhausted _ => some .iterationLimit
  | failed _ => none

/-- What an optimizer remembers of a run that ended in this way. -/
def Memory.ofRun (r : Run K n) (status : Option Status) : Memory K n :=
  { r with fmin := some r.fmin, status }

/-- The effect of a run: the optimizer and the point afterwards, what happened and how it ended. -/
structure Report (K : Type) [Scalar K] (n : Nat) where
  optimizer : Optimizer K n
  point : Vector K n
  events : List (Event K n)
  exit : Exit K

/-- What the caller gets: the value or a fault. -/
def Report.outcome (r : Report K n) : Except (Fault K) K :=
  match r.exit with
  | .converged _ value => .ok value
  | .exhausted _ => .error (.notConverged r.optimizer.setup.settings.maxIter)
  | .failed e => .error e

namespace Optimizer

/-- Builds an optimizer from checked parts. The functions are checked before the settings, and the
length of the vectors last. -/
def create (registry : Registry K) (f : Option (Objective K n)) (g : Option (Gradient K n))
    (draft : Except (Fault K) (Draft K)) : Except (Fault K) (Optimizer K n) :=
  match f, g with
  | none, _ => .error .objectiveMissing
  | some _, none => .error .gradientMissing
  | some f, some g => do
    let settings ← (← draft).validate registry.names
    if n ≥ Dimension.limit then
      .error (.tooLong n)
    let strategy ← registry.make settings.lineSearch ⟨true, true⟩
    return ⟨⟨f, g, settings⟩, .initial strategy⟩

/-- The run at its start, once the first value and the first gradient are known. -/
def begin (o : Optimizer K n) (x : Vector K n) (fx : K) (gradient : Vector K n) : Run K n :=
  let u := -gradient
  { x, u, g := u, h := u, fx, fmin := fx
    -- a guess, which sizes the first step only
    fold := fx + norm u / 2.0
    step := 0.0, nfev := 1, njev := 1, nit := 0
    history := if o.setup.settings.history then some (History.empty.push ⟨fx, x, zeros n⟩) else none
    search := o.memory.search }

/-- A run that ends before it has a gradient, after so many values. What the last run left is kept,
but for its counts and status. -/
def abandon (o : Optimizer K n) (x : Vector K n) (nfev : Nat) (events : List (Event K n))
    (e : Fault K) : Report K n :=
  ⟨{ o with memory := { o.memory with nfev, njev := 0, nit := 0, status := none } }, x, events,
    .failed e⟩

/-- Minimizes from a point that has been accepted. -/
def minimizeFrom (o : Optimizer K n) (debug : Bool) (x : Vector K n) : Report K n :=
  let s := o.setup
  match s.objective x with
  | .error e => o.abandon x 0 [.value x] e
  | .ok fx =>
    let calls := [.value x, .gradient x]
    match s.vectorGradient x with
    | .error e => o.abandon x 1 calls e
    | .ok gradient =>
      let r := o.begin x fx gradient
      let started := .notice (.started s.settings.method.name s.settings.lineSearch r.fx)
      let f := r.loop s (s.settings.verifies debug) s.settings.maxIter 0
      ⟨{ o with memory := .ofRun f.run f.exit.status }, f.run.x, calls ++ started :: f.events,
        f.exit⟩

/-- Minimizes from the given point, which is overwritten with the minimizer. A point that is
refused changes nothing. -/
def minimize (o : Optimizer K n) (debug : Bool) (c : Candidate K) :
    Except (Fault K) (Report K n) :=
  return o.minimizeFrom debug (← c.toPoint n)

end Optimizer
end Descent
