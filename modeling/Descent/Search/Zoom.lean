import Descent.Line

/-! The strong Wolfe conditions, and zooming: an interval with an acceptable step inside shrinks until
one is found. -/
namespace Descent

/-- Value and slope at the start of a line, and the two constants. -/
structure Conditions (K : Type) where
  value : K
  slope : K
  c1 : K
  c2 : K

namespace Conditions
variable {K : Type} [Scalar K] (c : Conditions K)

/-- Sufficient decrease fails. -/
def TooHigh (s : Sample K) : Prop := s.value > c.value + c.c1 * s.step * c.slope

/-- The slope is small against the one at the start. -/
def Flat (slope : K) : Prop := abs slope ≤ -c.c2 * c.slope

instance (s : Sample K) : Decidable (c.TooHigh s) := inferInstanceAs (Decidable (_ < _))

instance (slope : K) : Decidable (c.Flat slope) := inferInstanceAs (Decidable (_ ≤ _))

end Conditions

variable {K : Type} [Scalar K]

/-- The minimizer of the parabola through `lo`, with its slope, and `hi`; the midpoint if there is
no minimizer in the inner part of the interval. -/
def interpolate (lo : Tangent K) (hi : Sample K) : Except (Fault K) K := do
  let d := hi.step - lo.step
  let midpoint := lo.step + 0.5 * d
  let denom := 2.0 * (hi.value - lo.value - lo.slope * d)
  if denom ≤ 0.0 then
    return midpoint
  let t := lo.step - (← quotient (lo.slope * d * d) denom)
  let margin := 0.1 * abs d
  let inner := smaller lo.step hi.step + margin ≤ t && t ≤ larger lo.step hi.step - margin
  return if isFinite t && inner then t else midpoint

/-- How the search for an acceptable step ended. -/
inductive Ending (K : Type) where
  /-- With a step of this slope that meets both conditions. -/
  | accepted (slope : K)
  /-- With an interval that was given up. -/
  | collapsed
  /-- With doubled steps that still descend. -/
  | exhausted

structure Found (K : Type) extends Step K where
  ending : Ending K

namespace Zoom

/-- The ends of the interval, of which `lo` is the better, and the evaluations so far. -/
structure State (K : Type) where
  lo : Tangent K
  hi : Sample K
  nfev : Nat
  njev : Nat

inductive Verdict (K : Type) where
  | accepted (found : Found K)
  | narrowed (s : State K)

/-- One trial inside the interval: it is accepted or becomes one of the ends. -/
def step (l : Line K) (c : Conditions K) (s : State K) : Search K (Verdict K) := do
  let t ← interpolate s.lo s.hi
  let v ← l.valueAt t
  let nfev := s.nfev + 1
  if c.TooHigh ⟨t, v⟩ ∨ v ≥ s.lo.value then
    return .narrowed { s with hi := ⟨t, v⟩, nfev }
  let slope ← l.slopeAt t
  let njev := s.njev + 1
  if c.Flat slope then
    return .accepted ⟨⟨⟨t, v⟩, nfev, njev⟩, .accepted slope⟩
  let hi := if slope * (s.hi.step - s.lo.step) ≥ 0.0 then s.lo.toSample else s.hi
  return .narrowed ⟨⟨⟨t, v⟩, slope⟩, hi, nfev, njev⟩

/-- The interval is too small to go on. -/
def State.Collapsed (s : State K) : Prop :=
  abs (s.hi.step - s.lo.step) ≤ 1e-12 * larger 1.0 (abs s.lo.step)

instance (s : State K) : Decidable s.Collapsed := inferInstanceAs (Decidable (_ ≤ _))

/-- The better end meets the first condition, and is what remains. -/
def giveUp (s : State K) : Search K (Found K) := do
  Traced.emit (.notice (.zoomStopped s.lo.step))
  return ⟨⟨s.lo.toSample, s.nfev, s.njev⟩, .collapsed⟩

def run (l : Line K) (c : Conditions K) : Nat → State K → Search K (Found K)
  | 0, s => giveUp s
  | budget + 1, s => do
    match ← step l c s with
    | .accepted found => return found
    | .narrowed s => if s.Collapsed then giveUp s else run l c budget s

end Zoom
end Descent
