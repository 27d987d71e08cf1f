import Descent.Search.Bracket

/-! Minimization inside a bracket by parabolic steps, with golden-section steps as a fallback. -/
namespace Descent
variable {K : Type} [Scalar K]

/-- The part of the longer side that a golden-section step covers. -/
def goldenSection : K := 0.5 * (3.0 - sqrt 5.0)

/-- The shortest step worth taking near zero. -/
def leastStep : K := 1e-10

namespace Brent

structure Options (K : Type) where
  tol : K
  maxIter : Int

def Options.standard : Options K := ⟨3e-8, 100⟩

/-- The interval `lo`, `hi`; the best, second best and previous second best points with their
values; the last step and the one before it. -/
structure State (K : Type) where
  lo : K
  hi : K
  x : K
  w : K
  v : K
  fx : K
  fw : K
  fv : K
  d : K
  e : K

def State.initial (a b c fb : K) : State K :=
  ⟨smaller a c, larger a c, b, b, b, fb, fb, fb, 0.0, 0.0⟩

def State.middle (s : State K) : K := 0.5 * (s.lo + s.hi)

/-- The shortest step worth taking. -/
def State.least (tol : K) (s : State K) : K := tol * abs s.x + leastStep

/-- Both ends are within twice the shortest step. -/
def State.Converged (tol : K) (s : State K) : Prop :=
  abs (s.x - s.middle) ≤ 2.0 * s.least tol - 0.5 * (s.hi - s.lo)

instance (tol : K) (s : State K) : Decidable (s.Converged tol) :=
  inferInstanceAs (Decidable (_ ≤ _))

/-- A step into the longer side. -/
def State.goldenStep (s : State K) : State K :=
  let e := if s.x ≥ s.middle then s.lo - s.x else s.hi - s.x
  { s with d := goldenSection * e, e }

/-- A step to the vertex of the parabola through the three points, if it lies inside and is less
than half the step before the last; else a golden-section step. -/
def State.propose (tol : K) (s : State K) : Except (Fault K) (State K) := do
  let tol1 := s.least tol
  if abs s.e > tol1 then
    let r := (s.x - s.w) * (s.fx - s.fv)
    let q := (s.x - s.v) * (s.fx - s.fw)
    let p := (s.x - s.v) * q - (s.x - s.w) * r
    let q := 2.0 * (q - r)
    let p := if q > 0.0 then -p else p
    let q := abs q
    if abs p ≥ abs (0.5 * q * s.e) ∨ p ≤ q * (s.lo - s.x) ∨ p ≥ q * (s.hi - s.x) then
      return s.goldenStep
    let d ← quotient p q
    let u := s.x + d
    let tol2 := 2.0 * tol1
    let d := if u - s.lo < tol2 ∨ s.hi - u < tol2 then copySign tol1 (s.middle - s.x) else d
    return { s with d, e := s.d }
  else
    return s.goldenStep

/-- The next trial: the proposed step, but no shorter than the shortest one. -/
def State.trial (tol : K) (s : State K) : K :=
  let tol1 := s.least tol
  if abs s.d ≥ tol1 then s.x + s.d else s.x + copySign tol1 s.d

/-- The trial takes its place among the three points, and the interval is cut. -/
def State.update (s : State K) (u fu : K) : State K :=
  if fu ≤ s.fx then
    let s' := if u ≥ s.x then { s with lo := s.x } else { s with hi := s.x }
    { s' with v := s.w, w := s.x, x := u, fv := s.fw, fw := s.fx, fx := fu }
  else
    let s' := if u < s.x then { s with lo := u } else { s with hi := u }
    if fu ≤ s.fw || s.w == s.x then
      { s' with v := s.w, w := u, fv := s.fw, fw := fu }
    else if fu ≤ s.fv || s.v == s.x || s.v == s.w then
      { s' with v := u, fv := fu }
    else s'

/-- One trial. -/
def step (l : Line K) (tol : K) (s : State K) : Search K (State K) := do
  let s ← s.propose tol
  let u := s.trial tol
  return s.update u (← l.valueAt u)

/-- At most `budget` trials; the values taken so far are counted along. -/
def run (l : Line K) (o : Options K) : Nat → State K → Nat → Search K (Step K)
  | 0, s, nfev => do
    Traced.emit (.notice (.toleranceMissed o.maxIter))
    return ⟨⟨s.x, s.fx⟩, nfev, 0⟩
  | budget + 1, s, nfev => do
    if s.Converged o.tol then
      return ⟨⟨s.x, s.fx⟩, nfev, 0⟩
    run l o budget (← step l o.tol s) (nfev + 1)

/-- The minimizer inside the bracket `a`, `b`, `c`, where `fb` is the value at `b`. -/
def search (l : Line K) (a b c fb : K) (o : Options K) : Search K (Step K) :=
  run l o o.maxIter.toNat (.initial a b c fb) 0

/-- Bracketing from the unit interval, then minimization in the bracket. -/
def bracketAndSearch (l : Line K) (o : Options K) : Search K (Step K) := do
  let (s, nfev) ← Bracket.search l 0.0 1.0 .standard
  let found ← search l s.a s.b s.c s.fb o
  return { found with nfev := nfev + found.nfev }

end Brent
end Descent
