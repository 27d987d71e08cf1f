import Descent.ConjugateGradient.Workspace
import Descent.Proofs.Run.Beside

/-! What the working vectors hold before a run does not matter: every part of a run overwrites what
it reads of them. -/
namespace Descent
variable {K : Type} {n : Nat}

theorem Stage.toTurn_andThen {t : Stage K n} {f : Run K n → Vector K n → Stage K n}
    {f₀ : Run K n → Turn K n} (hf : ∀ r tmp, (f r tmp).toTurn = f₀ r) :
    (t.andThen f).toTurn = t.toTurn.andThen f₀ := by
  cases h : t.exit with
  | some e => simp [andThen, h, Turn.andThen_of_some h]
  | none => simp [andThen, h, Turn.andThen_of_none h, ← hf t.run t.tmp]

variable [Scalar K]

namespace GradientCheck
variable {f : Objective K n} {g : List K} {x : Vector K n} {o : Options K}

def State.withWork (w : Vector K n) (s : State K n) : State K n := { s with work := w }

/-- Each point is made afresh from `x`. -/
theorem component_withWork (k : Fin n) (s : State K n) (w : Vector K n) :
    ∃ w', component f g x o k (s.withWork w) =
      ⟨(component f g x o k s).state.withWork w', (component f g x o k s).outcome⟩ := by
  refine ⟨(component f g x o k (s.withWork w)).state.work, ?_⟩
  unfold component
  dsimp only
  split
  · rfl
  · rfl
  · split <;> rfl

theorem components_withWork (ks : List (Fin n)) (s : State K n) (w : Vector K n) :
    ∃ w', components f g x o ks (s.withWork w) =
      ⟨(components f g x o ks s).state.withWork w', (components f g x o ks s).outcome⟩ := by
  induction ks generalizing s w with
  | nil => exact ⟨w, rfl⟩
  | cons k ks ih =>
    obtain ⟨w', hk⟩ := component_withWork (f := f) (g := g) (x := x) (o := o) k s w
    rw [components, components, hk]
    cases hc : (component f g x o k s).outcome with
    | error e => exact ⟨w', by rw [hc]⟩
    | ok => exact ih _ w'

/-- A check makes the same evaluations with the same outcome in any scratch vector. -/
theorem run_withWork (w w' : Vector K n) :
    (run f g x o w).outcome = (run f g x o w').outcome ∧
      (run f g x o w).state.evals = (run f g x o w').state.evals ∧
      (run f g x o w).state.points = (run f g x o w').state.points := by
  obtain ⟨_, h⟩ := components_withWork (f := f) (g := g) (x := x) (o := o) (List.finRange n)
    ⟨w', 0, []⟩ w
  have h : run f g x o w = _ := h
  rw [h]
  exact ⟨rfl, rfl, rfl⟩

end GradientCheck

namespace Run
variable (s : Setup K n) (v : Bool) (r : Run K n) (tmp : Vector K n)

theorem toTurn_verifyIn : (verifyIn s r tmp).toTurn = verify s r := by
  obtain ⟨houtcome, hevals, hpoints⟩ := GradientCheck.run_withWork (f := s.objective)
    (g := r.u.toList) (x := r.x) (o := ⟨s.settings.checkTol, s.settings.checkStep⟩) tmp r.x
  unfold verifyIn verify
  dsimp only
  rw [← houtcome, ← hevals, ← hpoints]
  generalize GradientCheck.run s.objective r.u.toList r.x _ tmp = c
  cases c.outcome with
  | error e => rfl
  | ok => rfl

theorem foldl_scaledIn (x u : Vector K n) :
    (scaledIn x u).foldl peak 0.0 = scaledGradient x u := by
  have h : scaledIn x u = Vector.zipWith (fun a b => abs (peak (abs a) 1.0 * b)) x u := by
    ext i hi
    simp [scaledIn]
  rw [h, scaledGradient]

theorem toTurn_testGradientIn : (testGradientIn s r tmp).toTurn = testGradient s r := by
  unfold testGradientIn testGradient
  dsimp only
  rw [foldl_scaledIn]
  cases quotient (scaledGradient r.x r.u) (larger r.fx 1.0) with
  | error e => rfl
  | ok test =>
    dsimp only
    rw [Turn.andThen_of_none rfl]
    dsimp only [proceed]
    split <;> rfl

theorem weightIn_fst (m : Method) : (r.weightIn m tmp).1 = r.weight m := by
  cases m <;> rfl

theorem toTurn_redirectIn : (redirectIn s r tmp).toTurn = redirect s r := by
  unfold redirectIn redirect
  dsimp only
  rw [weightIn_fst]
  cases quotient (r.weight s.settings.method) r.squaredNorm with
  | error e => rfl
  | ok gamma =>
    dsimp only
    split <;> rfl

theorem toTurn_checkIn (tmp : Vector K n) :
    ((if v then verifyIn s else aside (·.proceed [])) r tmp).toTurn =
      (if v then verify s else (·.proceed [])) r := by
  cases v with
  | false => rfl
  | true => exact toTurn_verifyIn s r tmp

/-- An iteration in place is the iteration, whatever the scratch vector holds. -/
theorem toTurn_iterateIn (k : Nat) : (iterateIn s v k r tmp).toTurn = iterate s v k r := by
  have haside : ∀ {f : Run K n → Turn K n} (r tmp), (aside f r tmp).toTurn = f r :=
    fun _ _ => rfl
  unfold iterateIn iterate
  rw [Stage.toTurn_andThen (toTurn_redirectIn s), Stage.toTurn_andThen (toTurn_testGradientIn s),
    Stage.toTurn_andThen (toTurn_checkIn s v), Stage.toTurn_andThen haside,
    Stage.toTurn_andThen haside, Stage.toTurn_andThen haside]
  rfl

theorem loopIn_fst (budget k : Nat) :
    (loopIn s v r tmp budget k).1 = loop s v r budget k := by
  induction budget generalizing r tmp k with
  | zero => rfl
  | succ budget ih =>
    rw [loopIn, loop, ← toTurn_iterateIn s v r tmp k]
    dsimp only
    cases (iterateIn s v k r tmp).exit with
    | some e => rfl
    | none =>
      dsimp only
      rw [ih]

end Run

namespace Minimizer
variable (m : Minimizer K n) (debug : Bool)

theorem minimizeFrom_fst (x : Vector K n) :
    (m.minimizeFrom debug x).1 = m.toOptimizer.minimizeFrom debug x := by
  unfold minimizeFrom Optimizer.minimizeFrom
  dsimp only
  cases m.setup.objective x with
  | error e => rfl
  | ok fx =>
    dsimp only
    cases m.setup.vectorGradient x with
    | error e => rfl
    | ok gradient =>
      dsimp only
      rw [Run.loopIn_fst]
      rfl

variable {m debug} {c : Candidate K}

/-- An array that is refused is left as it is, and so is the minimizer. -/
theorem minimize_of_error {e : Fault K} (h : c.toPoint n = .error e) :
    m.minimize debug c = ⟨m, c, [], .error e⟩ := by
  simp [minimize, h]

/-- A call makes the run of its optimizer, whatever the working vectors hold. -/
theorem minimize_of_toPoint (m : Minimizer K n) (debug : Bool) {x : Vector K n}
    (h : c.toPoint n = .ok x) :
    let call := m.minimize debug c
    let report := m.toOptimizer.minimizeFrom debug x
    call.minimizer.toOptimizer = report.optimizer ∧
      call.point = { c with values := .ofVector report.point } ∧ call.events = report.events ∧
      call.outcome = report.outcome := by
  rw [← minimizeFrom_fst]
  simp [minimize, h]

end Minimizer

/-- What the caller gets, given the greatest number of iterations. -/
def Exit.outcome (maxIter : Nat) : Exit K → Except (Fault K) K
  | converged _ value => .ok value
  | exhausted _ => .error (.notConverged maxIter)
  | failed e => .error e

theorem Report.outcome_eq (r : Report K n) :
    r.outcome = r.exit.outcome r.optimizer.setup.settings.maxIter := by
  unfold outcome Exit.outcome
  cases r.exit <;> rfl

/-- The optimizer in place, with working vectors of any content. -/
def Optimizer.inPlace (o : Optimizer K n) (w : Workspace K n) : Minimizer K n := ⟨o, w⟩

namespace Optimizer
variable {o : Optimizer K n} {debug : Bool} {x₀ : Vector K n} {r₀ : Run K n} {c : Candidate K}

/-- What a call leaves of a run that has begun. -/
theorem inPlace_of_begins (w : Workspace K n) (debug : Bool) (hc : c.toPoint n = .ok x₀)
    (hb : o.Begins x₀ r₀) :
    let call := (o.inPlace w).minimize debug c
    let f := o.finish debug r₀
    call.point = { c with values := .ofVector f.run.x } ∧
      call.minimizer.memory = .ofRun f.run f.exit.status ∧
      Event.calls call.events = .value x₀ :: .gradient x₀ :: Event.calls f.events ∧
      call.outcome = f.exit.outcome o.setup.settings.maxIter := by
  obtain ⟨hopt, hpoint, hevents, houtcome⟩ :=
    Minimizer.minimize_of_toPoint (o.inPlace w) debug hc
  have hreport : (o.inPlace w).toOptimizer.minimizeFrom debug x₀ = o.minimizeFrom debug x₀ := rfl
  obtain ⟨hx, hexit, hmemory, hes⟩ := minimizeFrom_of_begins debug hb
  rw [hreport] at hopt hpoint hevents houtcome
  rw [hmemory] at hopt
  rw [hx] at hpoint
  rw [hes] at hevents
  rw [Report.outcome_eq, hexit, hmemory] at houtcome
  exact ⟨hpoint, congrArg Optimizer.memory hopt, congrArg Event.calls hevents, houtcome⟩

/-- What a call leaves of a run that does not begin. -/
theorem inPlace_of_abandons (w : Workspace K n) (debug : Bool) (hc : c.toPoint n = .ok x₀)
    {nfev : Nat} {events : List (Event K n)} {e : Fault K} (ha : o.Abandons x₀ nfev events e) :
    let call := (o.inPlace w).minimize debug c
    call.point = { c with values := .ofVector x₀ } ∧
      call.minimizer.memory = { o.memory with nfev, njev := 0, nit := 0, status := none } ∧
      call.events = events ∧ call.outcome = .error e := by
  obtain ⟨hopt, hpoint, hevents, houtcome⟩ :=
    Minimizer.minimize_of_toPoint (o.inPlace w) debug hc
  have hreport : (o.inPlace w).toOptimizer.minimizeFrom debug x₀ = o.abandon x₀ nfev events e :=
    minimizeFrom_of_abandons debug ha
  rw [hreport] at hopt hpoint hevents houtcome
  exact ⟨hpoint, congrArg Optimizer.memory hopt, hevents, houtcome⟩

end Optimizer
end Descent
