import Descent.Search.Zoom

/-! A search for a step that meets the strong Wolfe conditions: doubling, zooming, and one secant
step that makes it exact on parabolas. -/
namespace Descent
variable {K : Type} [Scalar K]

/-- The first trial step: it would repeat the last decrease if the function were linear, and is at
most one. -/
def firstStep (value slope previous : K) : Except (Fault K) K := do
  let t ← quotient (1.01 * 2.0 * (value - previous)) slope
  return if !isFinite t || t ≤ 0.0 then 1.0 else smaller 1.0 t

namespace Wolfe

structure Options (K : Type) where
  /-- The first trial step, unless a previous value is given. -/
  alpha0 : K
  c1 : K
  c2 : K
  maxIter : Int
  maxZoom : Int
  /-- The value before the start, from which a first trial step is derived. -/
  previous : Option K

def Options.standard : Options K := ⟨1.0, 1e-4, 0.1, 40, 32, none⟩

/-- The constants are in order: `0 < c1 < c2 < 1`. -/
def Ordered (c1 c2 : K) : Prop := 0.0 < c1 ∧ c1 < c2 ∧ c2 < 1.0

instance (c1 c2 : K) : Decidable (Ordered c1 c2) :=
  inferInstanceAs (Decidable (_ < _ ∧ _ < _ ∧ _ < _))

namespace Doubling

/-- The last step that was kept, the next one to try, and the evaluations so far. -/
structure State (K : Type) where
  last : Tangent K
  trial : K
  first : Bool
  nfev : Nat
  njev : Nat

inductive Verdict (K : Type) where
  | accepted (found : Found K)
  | bracketed (s : Zoom.State K)
  | descending (s : State K)

/-- One trial step: it is accepted, or an interval is found, or the step is doubled. -/
def step (l : Line K) (c : Conditions K) (s : State K) : Search K (Verdict K) := do
  let v ← l.valueAt s.trial
  let here : Sample K := ⟨s.trial, v⟩
  let nfev := s.nfev + 1
  if c.TooHigh here ∨ (s.first = false ∧ v ≥ s.last.value) then
    return .bracketed ⟨s.last, here, nfev, s.njev⟩
  let slope ← l.slopeAt s.trial
  let njev := s.njev + 1
  if c.Flat slope then
    return .accepted ⟨⟨here, nfev, njev⟩, .accepted slope⟩
  if slope ≥ 0.0 then
    return .bracketed ⟨⟨here, slope⟩, s.last.toSample, nfev, njev⟩
  return .descending ⟨⟨here, slope⟩, s.trial * 2.0, false, nfev, njev⟩

def run (l : Line K) (c : Conditions K) (maxZoom : Nat) : Nat → State K → Search K (Found K)
  | 0, s => return ⟨⟨s.last.toSample, s.nfev, s.njev⟩, .exhausted⟩
  | budget + 1, s => do
    match ← step l c s with
    | .accepted found => return found
    | .bracketed z => Zoom.run l c maxZoom z
    | .descending s => run l c maxZoom budget s

end Doubling

/-- An accepted step moves to the zero of the secant of the slope, if sufficient decrease still
holds there and the slope is no steeper. -/
def refine (l : Line K) (c : Conditions K) (s : Step K) (slope : K) : Search K (Step K) := do
  if slope == 0.0 || slope ≤ c.slope then
    return s
  let t ← quotient (s.step * c.slope) (c.slope - slope)
  if !isFinite t || t ≤ 0.0 || t == s.step then
    return s
  let v ← l.valueAt t
  let s := { s with nfev := s.nfev + 1 }
  if c.TooHigh ⟨t, v⟩ then
    return s
  let slope' ← l.slopeAt t
  let s := { s with njev := s.njev + 1 }
  return if abs slope' > abs slope then s else { s with step := t, value := v }

/-- Everything up to the secant step. -/
def find (l : Line K) (o : Options K) : Search K (Conditions K × Found K) := do
  if ¬ Ordered o.c1 o.c2 then
    Traced.fail .unorderedConstants
  let value ← l.valueAt 0.0
  let slope ← l.slopeAt 0.0
  if slope ≥ 0.0 then
    Traced.fail .ascentDirection
  let c : Conditions K := ⟨value, slope, o.c1, o.c2⟩
  let trial ← match o.previous with
    | some p => firstStep value slope p
    | none => pure o.alpha0
  let found ← Doubling.run l c o.maxZoom.toNat o.maxIter.toNat
    ⟨⟨⟨0.0, value⟩, slope⟩, trial, true, 1, 1⟩
  return (c, found)

def search (l : Line K) (o : Options K) : Search K (Step K) := do
  let (c, found) ← find l o
  match found.ending with
  | .accepted slope => refine l c found.toStep slope
  | .collapsed | .exhausted => return found.toStep

end Wolfe
end Descent
