import Descent.ConjugateGradient.Optimizer

/-! Optimizers that work in place: all runs share the working vectors. -/
namespace Descent
variable {K : Type} {n : Nat}

/-- The working vectors: the direction, the negative of the last gradient, the last direction, and a
scratch vector. -/
structure Workspace (K : Type) (n : Nat) where
  u : Vector K n
  g : Vector K n
  h : Vector K n
  tmp : Vector K n

/-- A part of a run with the scratch vector that it leaves. -/
structure Stage (K : Type) (n : Nat) extends Turn K n where
  tmp : Vector K n

/-- Goes on with `f`, unless the run has ended. -/
def Stage.andThen (t : Stage K n) (f : Run K n → Vector K n → Stage K n) : Stage K n :=
  match t.exit with
  | none =>
    let s := f t.run t.tmp
    { s with events := t.events ++ s.events }
  | some _ => t

namespace Run
variable [Scalar K]

/-- A part of a run that does not touch the scratch vector. -/
def aside (f : Run K n → Turn K n) (r : Run K n) (tmp : Vector K n) : Stage K n := ⟨f r, tmp⟩

/-- Compares the gradient with finite differences, whose points are made in the scratch vector. -/
def verifyIn (s : Setup K n) (r : Run K n) (tmp : Vector K n) : Stage K n :=
  let c := GradientCheck.run s.objective r.u.toList r.x ⟨s.settings.checkTol, s.settings.checkStep⟩ tmp
  let events := c.state.points.map Event.value
  match c.outcome with
  | .error e => ⟨⟨r, events, some (.failed e)⟩, c.state.work⟩
  | .ok () => ⟨{ r with nfev := r.nfev + c.state.evals }.proceed events, c.state.work⟩

/-- The components of the scaled gradient, one operation after the other in one vector. -/
def scaledIn (x u : Vector K n) : Vector K n :=
  let tmp := x.map abs
  let tmp := tmp.map (peak · 1.0)
  let tmp := Vector.zipWith (· * ·) tmp u
  tmp.map abs

/-- As `testGradient`; the scratch vector is overwritten with the scaled gradient. -/
def testGradientIn (s : Setup K n) (r : Run K n) (_ : Vector K n) : Stage K n :=
  let tmp := scaledIn r.x r.u
  match quotient (tmp.foldl peak 0.0) (larger r.fx 1.0) with
  | .error e => ⟨⟨r, [], some (.failed e)⟩, tmp⟩
  | .ok test =>
    let report := .notice (.progressed r.nit r.fmin r.step test)
    if test < s.settings.gtol then
      ⟨(r.proceed [report]).andThen (·.converge .gradientTolerance), tmp⟩
    else ⟨r.proceed [report], tmp⟩

/-- The weight of the last direction. Polak and Ribiere's is found by way of the scratch vector. -/
def weightIn (m : Method) (r : Run K n) (tmp : Vector K n) : K × Vector K n :=
  match m with
  | .fletcherReeves => (dot r.u r.u, tmp)
  | .polakRibiere =>
    let tmp := r.u + r.g
    (larger (dot tmp r.u) 0.0, tmp)

/-- As `redirect`, one vector after the other. -/
def redirectIn (s : Setup K n) (r : Run K n) (tmp : Vector K n) : Stage K n :=
  let (weight, tmp) := r.weightIn s.settings.method tmp
  match quotient weight r.squaredNorm with
  | .error e => ⟨⟨r, [], some (.failed e)⟩, tmp⟩
  | .ok gamma =>
    let r : Run K n := { r with g := -r.u }
    let r : Run K n := { r with u := r.h.map (· * gamma) }
    let r : Run K n := { r with u := r.u + r.g }
    if dot r.u r.g ≤ 0.0 then
      let r : Run K n := { r with u := r.g }
      ⟨{ r with h := r.u }.proceed [.notice (.restarted r.nit)], tmp⟩
    else ⟨{ r with h := r.u }.proceed [], tmp⟩

/-- Iteration number `k`, with the scratch vector that is found. -/
def iterateIn (s : Setup K n) (verifies : Bool) (k : Nat) (r : Run K n) (tmp : Vector K n) :
    Stage K n :=
  aside (testZero s) { r with nit := k } tmp
    |>.andThen (aside (descend s))
    |>.andThen (aside (testValue s))
    |>.andThen (aside (differentiate s))
    |>.andThen (if verifies then verifyIn s else aside (·.proceed []))
    |>.andThen (testGradientIn s)
    |>.andThen (redirectIn s)

/-- Iterations from number `k` on, at most `budget` of them, and the scratch vector at the end. -/
def loopIn (s : Setup K n) (verifies : Bool) (r : Run K n) (tmp : Vector K n) :
    Nat → Nat → Finish K n × Vector K n
  | 0, _ =>
    (⟨{ r with nit := s.settings.maxIter },
      [.notice (.exhausted s.settings.maxIter r.fmin)], .exhausted r.fmin⟩, tmp)
  | budget + 1, k =>
    let t := iterateIn s verifies k r tmp
    match t.exit with
    | some exit => (⟨t.run, t.events, exit⟩, t.tmp)
    | none =>
      let (f, tmp) := loopIn s verifies t.run t.tmp budget (k + 1)
      ({ f with events := t.events ++ f.events }, tmp)

end Run

namespace Workspace

def blank [Scalar K] : Workspace K n := ⟨zeros n, zeros n, zeros n, zeros n⟩

/-- The gradient is written to `u` and negated there; `g` and `h` are copies. -/
def load [Neg K] (w : Workspace K n) (gradient : Vector K n) : Workspace K n :=
  let w := { w with u := gradient }
  let w := { w with u := -w.u }
  let w := { w with g := w.u }
  { w with h := w.u }

end Workspace

variable [Scalar K]

/-- An optimizer with its working vectors. -/
structure Minimizer (K : Type) [Scalar K] (n : Nat) extends Optimizer K n where
  work : Workspace K n

/-- The effect of a call: the minimizer and the array handed in as they are afterwards, what
happened, and what the caller gets. -/
structure Call (K : Type) [Scalar K] (n : Nat) where
  minimizer : Minimizer K n
  point : Candidate K
  events : List (Event K n)
  outcome : Except (Fault K) K

namespace Minimizer

/-- Builds a minimizer from checked parts. -/
def create (registry : Registry K) (f : Option (Objective K n)) (g : Option (Gradient K n))
    (draft : Except (Fault K) (Draft K)) : Except (Fault K) (Minimizer K n) :=
  (Optimizer.create registry f g draft).map fun o => ⟨o, .blank⟩

/-- The run at its start, from the working vectors that hold the negative of the first gradient. -/
def begin (m : Minimizer K n) (x : Vector K n) (fx : K) : Run K n :=
  { x, u := m.work.u, g := m.work.g, h := m.work.h, fx, fmin := fx
    fold := fx + norm m.work.u / 2.0
    step := 0.0, nfev := 1, njev := 1, nit := 0
    history := if m.setup.settings.history then some (History.empty.push ⟨fx, x, zeros n⟩) else none
    search := m.memory.search }

/-- Minimizes from a point that has been accepted. A run that ends before it has a gradient leaves
the working vectors alone. -/
def minimizeFrom (m : Minimizer K n) (debug : Bool) (x : Vector K n) :
    Report K n × Workspace K n :=
  let s := m.setup
  match s.objective x with
  | .error e => (m.abandon x 0 [.value x] e, m.work)
  | .ok fx =>
    let calls := [.value x, .gradient x]
    match s.vectorGradient x with
    | .error e => (m.abandon x 1 calls e, m.work)
    | .ok gradient =>
      let m := { m with work := m.work.load gradient }
      let r := m.begin x fx
      let started := .notice (.started s.settings.method.name s.settings.lineSearch r.fx)
      let (f, tmp) := r.loopIn s (s.settings.verifies debug) m.work.tmp s.settings.maxIter 0
      (⟨{ m.toOptimizer with memory := .ofRun f.run f.exit.status }, f.run.x,
        calls ++ started :: f.events, f.exit⟩, ⟨f.run.u, f.run.g, f.run.h, tmp⟩)

/-- Minimizes from the given array, which is overwritten with the minimizer. -/
def minimize (m : Minimizer K n) (debug : Bool) (c : Candidate K) : Call K n :=
  match c.toPoint n with
  | .error e => ⟨m, c, [], .error e⟩
  | .ok x =>
    let (r, work) := m.minimizeFrom debug x
    ⟨⟨r.optimizer, work⟩, { c with values := .ofVector r.point }, r.events, r.outcome⟩

end Minimizer
end Descent
