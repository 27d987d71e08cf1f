import Descent.Line

/-! Finite differences, and gradients checked against them. -/
namespace Descent
variable {K : Type} [Scalar K] {n : Nat}

/-- The five-point central difference of four samples around the middle. -/
def centralQuotient (a b c d h : K) : Except (Fault K) K :=
  quotient (a - 8.0 * b + 8.0 * c - d) (12.0 * h)

/-- An estimate of the derivative of `f` at `x` from samples at distances `h` and `2 h`. It is
exact on polynomials up to degree four. Each event is the argument of a sample. -/
def derivative (f : K → Except (Fault K) K) (x h : K) : Traced K (Fault K) K := do
  if h ≤ 0.0 then
    Traced.fail .stepNotPositive
  let a ← sample (x - 2.0 * h)
  let b ← sample (x - h)
  let c ← sample (x + h)
  let d ← sample (x + 2.0 * h)
  centralQuotient a b c d h
where
  sample (t : K) : Traced K (Fault K) K := ⟨f t, [t]⟩

namespace GradientCheck

/-- The largest deviation accepted, and the difference step. -/
structure Options (K : Type) where
  tol : K
  step : K

def Options.standard : Options K := ⟨1e-12, 1e-3⟩

/-- The scratch vector, the number of evaluations so far, and the points evaluated. -/
structure State (K : Type) (n : Nat) where
  work : Vector K n
  evals : Nat
  points : List (Vector K n)

/-- What a check leaves behind. -/
structure Result (K : Type) (n : Nat) where
  state : State K n
  outcome : Except (Fault K) Unit

/-- Compares one component of `g` with the difference quotient along its axis. -/
def component (f : Objective K n) (g : List K) (x : Vector K n) (o : Options K) (k : Fin n)
    (s : State K n) : Result K n :=
  let moved (t : K) := x.set k t
  let r := derivative (fun t => f (moved t)) x[k] o.step
  let probed := r.events.map moved
  let s : State K n :=
    ⟨probed.getLastD s.work, s.evals + r.events.length, s.points ++ probed⟩
  match r.outcome, g[k.val]? with
  | .error e, _ => ⟨s, .error e⟩
  | .ok _, none => ⟨s, .error (.componentMissing k g.length)⟩
  | .ok expected, some actual =>
    let diff := abs (actual - expected)
    if diff > o.tol then ⟨s, .error (.gradientMismatch k expected actual diff)⟩ else ⟨s, .ok ()⟩

/-- Compares the given components in turn, up to the first that fails. -/
def components (f : Objective K n) (g : List K) (x : Vector K n) (o : Options K) :
    List (Fin n) → State K n → Result K n
  | [], s => ⟨s, .ok ()⟩
  | k :: ks, s =>
    let r := component f g x o k s
    match r.outcome with
    | .ok () => components f g x o ks r.state
    | .error _ => r

/-- Verifies the gradient `g` of `f` at `x`; `work` is a scratch vector. -/
def run (f : Objective K n) (g : List K) (x : Vector K n) (o : Options K) (work : Vector K n) :
    Result K n :=
  components f g x o (List.finRange n) ⟨work, 0, []⟩

/-- As `run`, with a scratch vector that need not be of the length of the point. Where the point is a
single number, so are all entries of the points evaluated, but for the first; any other point cannot
be copied. That shows at the first sample, and without components there is none. -/
def runLists (f : ∀ n, Objective K n) (g x : List K) (o : Options K) (work : List K) :
    (n : Nat) × Result K n :=
  let n := work.length
  let w : Vector K n := ⟨work.toArray, by simp [n]⟩
  let refuse (e : Fault K) : (n : Nat) × Result K n :=
    ⟨n, ⟨w, 0, []⟩, .error (if o.step ≤ 0.0 then .stepNotPositive else e)⟩
  match x with
  | [] => ⟨n, ⟨w, 0, []⟩, .ok ()⟩
  | [a] =>
    if h : 0 < n then ⟨n, components (f n) g (Vector.replicate n a) o [⟨0, h⟩] ⟨w, 0, []⟩⟩
    else refuse (.componentMissing 0 0)
  | x =>
    if h : x.length = n then ⟨n, run (f n) g ⟨x.toArray, by simp [h]⟩ o w⟩
    else refuse (.workLength x.length n)

end GradientCheck
end Descent
