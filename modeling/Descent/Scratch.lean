import Descent.GradientCheck

/-! Gradients checked in place: all points are made in one scratch vector. -/
namespace Descent.GradientCheck
variable {K : Type} {n : Nat} {α : Type}

/-- The point that is checked, beside the scratch vector and the evaluations so far. -/
structure Memory (K : Type) (n : Nat) extends State K n where
  point : Vector K n

/-- A computation that works in a memory, and leaves it behind also when it fails. -/
abbrev Check (K : Type) (n : Nat) := EStateM (Fault K) (Memory K n)

def Check.ofExcept : Except (Fault K) α → Check K n α
  | .ok a => return a
  | .error e => throw e

/-- One sample: the point is copied into the scratch vector, one component is written over there,
and the objective is evaluated at what results. -/
def sampleIn (f : Objective K n) (k : Fin n) (t : K) : Check K n K := do
  modify fun m => { m with work := m.point }
  modify fun m => { m with work := m.work.set k t k.isLt }
  modify fun m => { m with evals := m.evals + 1, points := m.points ++ [m.work] }
  Check.ofExcept (f (← get).work)

variable [Scalar K]

/-- As `derivative`, with samples that work in a memory. -/
def derivativeIn (sample : K → Check K n K) (x h : K) : Check K n K := do
  if h ≤ 0.0 then
    throw .stepNotPositive
  let a ← sample (x - 2.0 * h)
  let b ← sample (x - h)
  let c ← sample (x + h)
  let d ← sample (x + 2.0 * h)
  Check.ofExcept (centralQuotient a b c d h)

/-- Compares one component of `g` with the difference quotient along its axis. -/
def componentIn (f : Objective K n) (g : List K) (o : Options K) (k : Fin n) : Check K n Unit := do
  let expected ← derivativeIn (sampleIn f k) ((← get).point.get k) o.step
  match g[k.val]? with
  | none => throw (.componentMissing k g.length)
  | some actual =>
    let diff := abs (actual - expected)
    if diff > o.tol then
      throw (.gradientMismatch k expected actual diff)

def componentsIn (f : Objective K n) (g : List K) (o : Options K) : List (Fin n) → Check K n Unit
  | [] => return
  | k :: ks => do
    componentIn f g o k
    componentsIn f g o ks

/-- Verifies the gradient `g` of `f`, and returns the number of evaluations. -/
def runIn (f : Objective K n) (g : List K) (o : Options K) : Check K n Nat := do
  componentsIn f g o (List.finRange n)
  return (← get).evals

end Descent.GradientCheck
