import Descent.ConjugateGradient.Settings
import Descent.GradientCheck
import Descent.History
import Descent.LineSearch

/-! One iteration of the conjugate-gradient method, and the loop over iterations. -/
namespace Descent
variable {K : Type} {n : Nat}

/-- What stays the same during a run. -/
structure Setup (K : Type) [Scalar K] (n : Nat) where
  objective : Objective K n
  gradient : Gradient K n
  settings : Settings K

/-- The gradient at a point, which must be a vector of the same length. -/
def Setup.vectorGradient [Scalar K] (s : Setup K n) (x : Vector K n) :
    Except (Fault K) (Vector K n) := do
  let value ← s.gradient x
  match value.toVector? n with
  | some u => .ok u
  | none => .error (.gradientShape n value.shape)

/-- A run under way. -/
structure Run (K : Type) (n : Nat) where
  x : Vector K n
  /-- The direction; between its evaluation and the next direction, the new gradient. -/
  u : Vector K n
  /-- The negative of the last gradient. -/
  g : Vector K n
  /-- The last direction. -/
  h : Vector K n
  /-- The value before the last search. -/
  fx : K
  /-- The value before that: the hint for the next search. -/
  fold : K
  fmin : K
  /-- The length of the last step. -/
  step : K
  nfev : Nat
  njev : Nat
  nit : Nat
  history : Option (History K n)
  search : LineSearch K

/-- How a run ends: with its last value, or with a fault. -/
inductive Exit (K : Type) where
  | converged (status : Status) (value : K)
  | exhausted (value : K)
  | failed (fault : Fault K)

/-- A part of a run: what it leaves behind, and whether it ends the run. -/
structure Turn (K : Type) (n : Nat) where
  run : Run K n
  events : List (Event K n)
  exit : Option (Exit K)

/-- A run that has ended. -/
structure Finish (K : Type) (n : Nat) where
  run : Run K n
  events : List (Event K n)
  exit : Exit K

namespace Turn
variable {t : Turn K n} {f : Run K n → Turn K n}

/-- Goes on with `f`, unless the run has ended. -/
def andThen (t : Turn K n) (f : Run K n → Turn K n) : Turn K n :=
  match t.exit with
  | none =>
    let s := f t.run
    { s with events := t.events ++ s.events }
  | some _ => t

theorem andThen_of_none (h : t.exit = none) :
    t.andThen f = { f t.run with events := t.events ++ (f t.run).events } := by
  simp [andThen, h]

theorem andThen_of_some {e : Exit K} (h : t.exit = some e) : t.andThen f = t := by
  simp [andThen, h]

end Turn

namespace Run
variable [Scalar K]

def proceed (r : Run K n) (events : List (Event K n)) : Turn K n := ⟨r, events, none⟩

/-- Ends the run with that status. -/
def converge (r : Run K n) (status : Status) : Turn K n :=
  ⟨r, [.notice (.finished status r.nit r.fmin r.nfev r.njev)], some (.converged status r.fmin)⟩

/-- The squared norm of the last gradient. -/
def squaredNorm (r : Run K n) : K := dot r.g r.g

def testZero (s : Setup K n) (r : Run K n) : Turn K n :=
  if abs r.squaredNorm < s.settings.tiny then r.converge .zeroGradient else r.proceed []

/-- A line search along the direction. -/
def descend (s : Setup K n) (r : Run K n) : Turn K n :=
  let m := r.search.minimize s.objective s.gradient r.x r.u (some r.fold)
  let r := { r with search := m.search }
  match m.found.outcome with
  | .error e => ⟨r, m.found.events, some (.failed e)⟩
  | .ok step =>
    let r : Run K n := { r with
      x := m.point, fmin := step.value, step := step.step, fold := r.fx
      nfev := r.nfev + step.nfev, njev := r.njev + step.njev
      history := r.history.map (·.push ⟨step.value, m.point, scale step.step r.u⟩) }
    r.proceed m.found.events

/-- The function value hardly changed. -/
def testValue (s : Setup K n) (r : Run K n) : Turn K n :=
  if 2.0 * abs (r.fmin - r.fx) ≤ s.settings.ftol * (abs r.fmin + abs r.fx + s.settings.tiny) then
    r.converge .functionTolerance
  else r.proceed []

/-- Evaluates the gradient into `u`. -/
def differentiate (s : Setup K n) (r : Run K n) : Turn K n :=
  let r := { r with fx := r.fmin }
  match s.vectorGradient r.x with
  | .error e => ⟨r, [.gradient r.x], some (.failed e)⟩
  | .ok u => { r with u, njev := r.njev + 1 }.proceed [.gradient r.x]

/-- Compares the gradient with finite differences. -/
def verify (s : Setup K n) (r : Run K n) : Turn K n :=
  let c := GradientCheck.run s.objective r.u.toList r.x ⟨s.settings.checkTol, s.settings.checkStep⟩ r.x
  let events := c.state.points.map Event.value
  match c.outcome with
  | .error e => ⟨r, events, some (.failed e)⟩
  | .ok () => { r with nfev := r.nfev + c.state.evals }.proceed events

/-- The largest component of the gradient, scaled by the point where that is greater than one. -/
def scaledGradient (x u : Vector K n) : K :=
  (Vector.zipWith (fun a b => abs (peak (abs a) 1.0 * b)) x u).foldl peak 0.0

/-- The scaled gradient is small against the value. -/
def testGradient (s : Setup K n) (r : Run K n) : Turn K n :=
  match quotient (scaledGradient r.x r.u) (larger r.fx 1.0) with
  | .error e => ⟨r, [], some (.failed e)⟩
  | .ok test =>
    (r.proceed [.notice (.progressed r.nit r.fmin r.step test)]).andThen fun r =>
      if test < s.settings.gtol then r.converge .gradientTolerance else r.proceed []

/-- The weight of the last direction in the next one, before it is divided by the squared norm. -/
def weight (m : Method) (r : Run K n) : K :=
  match m with
  | .fletcherReeves => dot r.u r.u
  | .polakRibiere => larger (dot (r.u + r.g) r.u) 0.0

/-- Combines the negative gradient with the last direction; the negative gradient alone, if that
does not descend. -/
def redirect (s : Setup K n) (r : Run K n) : Turn K n :=
  match quotient (r.weight s.settings.method) r.squaredNorm with
  | .error e => ⟨r, [], some (.failed e)⟩
  | .ok gamma =>
    let g := -r.u
    let u := r.h.map (· * gamma) + g
    if dot u g ≤ 0.0 then
      { r with u := g, g, h := g }.proceed [.notice (.restarted r.nit)]
    else { r with u, g, h := u }.proceed []

/-- Iteration number `k`. -/
def iterate (s : Setup K n) (verifies : Bool) (k : Nat) (r : Run K n) : Turn K n :=
  ({ r with nit := k }.testZero s)
    |>.andThen (descend s)
    |>.andThen (testValue s)
    |>.andThen (differentiate s)
    |>.andThen (if verifies then verify s else (·.proceed []))
    |>.andThen (testGradient s)
    |>.andThen (redirect s)

/-- Iterations from number `k` on, at most `budget` of them. -/
def loop (s : Setup K n) (verifies : Bool) (r : Run K n) : Nat → Nat → Finish K n
  | 0, _ =>
    ⟨{ r with nit := s.settings.maxIter },
      [.notice (.exhausted s.settings.maxIter r.fmin)], .exhausted r.fmin⟩
  | budget + 1, k =>
    let t := iterate s verifies k r
    match t.exit with
    | some exit => ⟨t.run, t.events, exit⟩
    | none =>
      let f := loop s verifies t.run budget (k + 1)
      { f with events := t.events ++ f.events }

end Run
end Descent
