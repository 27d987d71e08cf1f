import Descent.Line

/-! Bracketing a minimum by golden-section growth and parabolic extrapolation. -/
namespace Descent
variable {K : Type} [Scalar K]

/-- The ratio by which an interval grows. -/
def golden : K := 0.5 * (1.0 + sqrt 5.0)

/-- Keeps a vanishing curvature away from zero. -/
def tinyCurvature : K := 1e-20

/-- Three abscissae in order along the line and the values there. -/
structure Bracket (K : Type) where
  a : K
  b : K
  c : K
  fa : K
  fb : K
  fc : K

namespace Bracket

structure Options (K : Type) where
  growLimit : K
  maxIter : Int

def Options.standard : Options K := ⟨100.0, 200⟩

/-- The vertex of the parabola through the three points. -/
def vertex (s : Bracket K) : Except (Fault K) K := do
  let r := (s.b - s.a) * (s.fb - s.fc)
  let q := (s.b - s.c) * (s.fb - s.fa)
  let denom := 2.0 * copySign (larger (abs (q - r)) tinyCurvature) (q - r)
  return s.b - (← quotient ((s.b - s.c) * q - (s.b - s.a) * r) denom)

inductive Verdict (K : Type) where
  | found (s : Bracket K)
  | next (s : Bracket K)

/-- The three points move on: the first is left behind. -/
def shift (s : Bracket K) (u fu : K) : Bracket K := ⟨s.b, s.c, u, s.fb, s.fc, fu⟩

/-- One expansion of three descending points, with the number of values it took. -/
def expand (l : Line K) (growLimit : K) (s : Bracket K) : Search K (Verdict K × Nat) := do
  let u ← s.vertex
  let limit := s.b + growLimit * (s.c - s.b)
  if (s.b - u) * (u - s.c) > 0.0 then
    let fu ← l.valueAt u
    if fu < s.fc then
      return (.found ⟨s.b, u, s.c, s.fb, fu, s.fc⟩, 1)
    if fu > s.fb then
      return (.found ⟨s.a, s.b, u, s.fa, s.fb, fu⟩, 1)
    let w := s.c + golden * (s.c - s.b)
    return (.next (s.shift w (← l.valueAt w)), 2)
  else if (s.c - u) * (u - limit) > 0.0 then
    let fu ← l.valueAt u
    if fu < s.fc then
      let w := u + golden * (u - s.c)
      let fw ← l.valueAt w
      return (.next ((s.shift u fu).shift w fw), 2)
    return (.next (s.shift u fu), 1)
  else if (u - limit) * (limit - s.c) ≥ 0.0 then
    return (.next (s.shift limit (← l.valueAt limit)), 1)
  else
    let w := s.c + golden * (s.c - s.b)
    return (.next (s.shift w (← l.valueAt w)), 1)

/-- At most `budget` expansions; the values taken so far are counted along. -/
def run (l : Line K) (o : Options K) :
    Nat → Bracket K → Nat → Search K (Bracket K × Nat)
  | 0, _, _ => Traced.fail (.noBracket o.maxIter)
  | budget + 1, s, nfev => do
    if s.fb ≤ s.fc then
      return (s, nfev)
    match ← expand l o.growLimit s with
    | (.found s, k) => return (s, nfev + k)
    | (.next s, k) => run l o budget s (nfev + k)

/-- The first three points: the better of `a` and `b` in the middle. -/
def initial (l : Line K) (a b : K) : Search K (Bracket K) := do
  let fa ← l.valueAt a
  let fb ← l.valueAt b
  let (a, b, fa, fb) := if fb > fa then (b, a, fb, fa) else (a, b, fa, fb)
  let c := b + golden * (b - a)
  let fc ← l.valueAt c
  return ⟨a, b, c, fa, fb, fc⟩

/-- A bracket of a minimum, and the number of values taken. -/
def search (l : Line K) (a b : K) (o : Options K) : Search K (Bracket K × Nat) := do
  run l o o.maxIter.toNat (← initial l a b) 3

end Bracket
end Descent
