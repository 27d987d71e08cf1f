import Descent.ConjugateGradient.Iteration

/-! How an iteration ends the run, and what it leaves behind if it does not. -/
namespace Descent

theorem Turn.andThen_assoc {K : Type} {n : Nat} (t : Turn K n) (f g : Run K n → Turn K n) :
    (t.andThen f).andThen g = t.andThen fun r => (f r).andThen g := by
  cases h : t.exit with
  | some e => rw [andThen_of_some h, andThen_of_some h, andThen_of_some h]
  | none =>
    rw [andThen_of_none h, andThen_of_none h]
    cases hf : (f t.run).exit with
    | some e => rw [andThen_of_some hf, andThen_of_some (by exact hf)]
    | none =>
      rw [andThen_of_none hf, andThen_of_none (by exact hf)]
      simp

namespace Run
variable {K : Type} [Scalar K] {n : Nat} {s : Setup K n} {v : Bool} {k : Nat} {r r' : Run K n}
  {e : Exit K}

/-- The line search that is made from a run. -/
def searched (s : Setup K n) (r : Run K n) : LineSearch.Result K n :=
  r.search.minimize s.objective s.gradient r.x r.u (some r.fold)

/-- The run after its search has ended with that step. -/
def moved (s : Setup K n) (r : Run K n) (step : Step K) : Run K n :=
  { r with
    search := (r.searched s).search
    x := along r.x r.u step.step, fmin := step.value, step := step.step, fold := r.fx
    nfev := r.nfev + step.nfev, njev := r.njev + step.njev
    history := r.history.map
      (·.push ⟨step.value, along r.x r.u step.step, scale step.step r.u⟩) }

/-- The value hardly changed. -/
def Steady (s : Setup K n) (r : Run K n) : Prop :=
  2.0 * abs (r.fmin - r.fx) ≤ s.settings.ftol * (abs r.fmin + abs r.fx + s.settings.tiny)

/-- The run with a new gradient in the place of the direction. -/
def differentiated (r : Run K n) (u : Vector K n) : Run K n :=
  { r with fx := r.fmin, u, njev := r.njev + 1 }

/-- The check of the gradient, if gradients are checked. -/
def checked (s : Setup K n) (v : Bool) (r : Run K n) : Turn K n :=
  if v then verify s r else r.proceed []

/-- The scaled gradient against the value. -/
def slopeTest (r : Run K n) : Except (Fault K) K :=
  quotient (scaledGradient r.x r.u) (larger r.fx 1.0)

/-- The last direction with that weight, added to the negative of the gradient. -/
def combined (r : Run K n) (gamma : K) : Vector K n := r.h.map (· * gamma) + -r.u

/-- The run with its next direction. -/
def turned (r : Run K n) (gamma : K) : Run K n :=
  if dot (r.combined gamma) (-r.u) ≤ 0.0 then { r with u := -r.u, g := -r.u, h := -r.u }
  else { r with u := r.combined gamma, g := -r.u, h := r.combined gamma }

/-- An iteration up to its last test. -/
def tested (s : Setup K n) (v : Bool) (r : Run K n) : Turn K n :=
  (r.testZero s).andThen fun r => (r.descend s).andThen fun r => (r.testValue s).andThen fun r =>
    (r.differentiate s).andThen fun r => (r.checked s v).andThen (testGradient s)

/-- A search is made from the run, and it ends with that step. -/
structure Searches (s : Setup K n) (r : Run K n) (step : Step K) : Prop where
  nonzero : ¬ abs r.squaredNorm < s.settings.tiny
  found : (r.searched s).found.outcome = .ok step

/-- The iteration comes as far as a gradient that has been checked. -/
inductive Differentiates (s : Setup K n) (v : Bool) (r : Run K n) : Run K n → Prop
  | intro {step : Step K} {u : Vector K n} (hs : r.Searches s step)
      (hf : ¬ (r.moved s step).Steady s) (hg : s.vectorGradient (r.moved s step).x = .ok u)
      (hc : (((r.moved s step).differentiated u).checked s v).exit = none) :
      Differentiates s v r (((r.moved s step).differentiated u).checked s v).run

/-- The iteration comes as far as the next direction. -/
structure Passes (s : Setup K n) (v : Bool) (r r' : Run K n) : Prop where
  differentiates : r.Differentiates s v r'
  test : ∃ test, r'.slopeTest = .ok test ∧ ¬ test < s.settings.gtol

/-- The iteration does not end the run. -/
inductive Completes (s : Setup K n) (v : Bool) (r : Run K n) : Run K n → Prop
  | intro {r' : Run K n} {gamma : K} (hp : r.Passes s v r')
      (hw : quotient (r'.weight s.settings.method) r'.squaredNorm = .ok gamma) :
      Completes s v r (r'.turned gamma)

/-- The ways in which an iteration ends the run. -/
inductive Ends (s : Setup K n) (v : Bool) (r : Run K n) : Run K n → Exit K → Prop
  | zeroGradient (hz : abs r.squaredNorm < s.settings.tiny) :
      Ends s v r r (.converged .zeroGradient r.fmin)
  | searchFails {e : Fault K} (hz : ¬ abs r.squaredNorm < s.settings.tiny)
      (hs : (r.searched s).found.outcome = .error e) :
      Ends s v r { r with search := (r.searched s).search } (.failed e)
  | functionTolerance {step : Step K} (hs : r.Searches s step)
      (hf : (r.moved s step).Steady s) :
      Ends s v r (r.moved s step) (.converged .functionTolerance step.value)
  | gradientFails {step : Step K} {e : Fault K} (hs : r.Searches s step)
      (hf : ¬ (r.moved s step).Steady s)
      (hg : s.vectorGradient (r.moved s step).x = .error e) :
      Ends s v r { r.moved s step with fx := step.value } (.failed e)
  | checkFails {step : Step K} {u : Vector K n} {e : Fault K} (hs : r.Searches s step)
      (hf : ¬ (r.moved s step).Steady s) (hg : s.vectorGradient (r.moved s step).x = .ok u)
      (hv : v = true)
      (hc : (GradientCheck.run s.objective u.toList (r.moved s step).x
        ⟨s.settings.checkTol, s.settings.checkStep⟩ (r.moved s step).x).outcome = .error e) :
      Ends s v r ((r.moved s step).differentiated u) (.failed e)
  | testFails {r' : Run K n} {e : Fault K} (hd : r.Differentiates s v r')
      (ht : r'.slopeTest = .error e) : Ends s v r r' (.failed e)
  | gradientTolerance {r' : Run K n} {test : K} (hd : r.Differentiates s v r')
      (ht : r'.slopeTest = .ok test) (hg : test < s.settings.gtol) :
      Ends s v r r' (.converged .gradientTolerance r'.fmin)
  | weightFails {r' : Run K n} {e : Fault K} (hp : r.Passes s v r')
      (hw : quotient (r'.weight s.settings.method) r'.squaredNorm = .error e) :
      Ends s v r r' (.failed e)

theorem Completes.differentiates (h : r.Completes s v r') : ∃ r'', r.Differentiates s v r'' := by
  cases h with
  | intro hp hw => exact ⟨_, hp.differentiates⟩

theorem testZero_of_lt (h : abs r.squaredNorm < s.settings.tiny) :
    r.testZero s = r.converge .zeroGradient := by
  rw [testZero, if_pos h]

theorem testZero_of_not_lt (h : ¬ abs r.squaredNorm < s.settings.tiny) :
    r.testZero s = r.proceed [] := by
  rw [testZero, if_neg h]

theorem testZero_run : (r.testZero s).run = r := by
  unfold testZero
  split <;> rfl

theorem descend_of_ok {step : Step K} (h : (r.searched s).found.outcome = .ok step) :
    r.descend s = (r.moved s step).proceed (r.searched s).found.events := by
  have hp : (r.searched s).point = along r.x r.u step.step := by
    unfold searched at h ⊢
    exact (LineSearch.minimize_of_ok h).1
  unfold descend
  unfold searched at h hp ⊢
  simp [h, hp, moved, searched]

theorem descend_of_error {e : Fault K} (h : (r.searched s).found.outcome = .error e) :
    r.descend s = ⟨{ r with search := (r.searched s).search }, (r.searched s).found.events,
      some (.failed e)⟩ := by
  unfold descend
  unfold searched at h ⊢
  simp [h]

theorem testValue_of_steady (h : r.Steady s) : r.testValue s = r.converge .functionTolerance := by
  rw [testValue, if_pos (by exact h)]

theorem testValue_of_not_steady (h : ¬ r.Steady s) : r.testValue s = r.proceed [] := by
  rw [testValue, if_neg (by exact h)]

theorem differentiate_of_error {e : Fault K} (h : s.vectorGradient r.x = .error e) :
    r.differentiate s = ⟨{ r with fx := r.fmin }, [.gradient r.x], some (.failed e)⟩ := by
  simp [differentiate, h]

theorem differentiate_of_ok {u : Vector K n} (h : s.vectorGradient r.x = .ok u) :
    r.differentiate s = (r.differentiated u).proceed [.gradient r.x] := by
  simp [differentiate, differentiated, h]

/-- A check adds to the number of values and changes nothing else. -/
theorem checked_run (s : Setup K n) (v : Bool) (r : Run K n) :
    ∃ evals, (r.checked s v).run = { r with nfev := r.nfev + evals } := by
  unfold checked
  split
  · unfold verify
    dsimp only
    split
    · exact ⟨0, rfl⟩
    · exact ⟨_, rfl⟩
  · exact ⟨0, rfl⟩

/-- With a checked gradient, the run is at the point that the search has found. -/
theorem eq_of_differentiates (h : r.Differentiates s v r') :
    ∃ step u nfev, r.Searches s step ∧ ¬ (r.moved s step).Steady s ∧
      s.vectorGradient (r.moved s step).x = .ok u ∧
      r' = { (r.moved s step).differentiated u with nfev } := by
  cases h with
  | intro hs hf hg hc =>
    rename_i step u
    obtain ⟨evals, he⟩ := checked_run s v ((r.moved s step).differentiated u)
    exact ⟨step, u, _, hs, hf, hg, he⟩

/-- The next search starts with the value of the last one. -/
theorem last_of_completes (h : r.Completes s v r') : r'.fx = r'.fmin := by
  cases h with
  | intro hp hw =>
    obtain ⟨step, u, nfev, -, -, -, rfl⟩ := eq_of_differentiates hp.differentiates
    unfold turned
    split <;> rfl

theorem checked_exit (h : (r.checked s v).exit = some e) :
    ∃ fault, e = .failed fault ∧ v = true ∧ (r.checked s v).run = r ∧
      (GradientCheck.run s.objective r.u.toList r.x
        ⟨s.settings.checkTol, s.settings.checkStep⟩ r.x).outcome = .error fault := by
  unfold checked at h ⊢
  cases v with
  | false => cases h
  | true =>
    rw [if_pos rfl] at h ⊢
    unfold verify at h ⊢
    dsimp only at h ⊢
    split at h
    · rename_i fault hc
      cases h
      rw [hc]
      exact ⟨fault, rfl, rfl, rfl, rfl⟩
    · cases h

theorem testGradient_of_error {e : Fault K} (h : r.slopeTest = .error e) :
    r.testGradient s = ⟨r, [], some (.failed e)⟩ := by
  unfold slopeTest at h
  simp [testGradient, h]

theorem testGradient_of_lt {test : K} (h : r.slopeTest = .ok test) (hg : test < s.settings.gtol) :
    r.testGradient s = ⟨r, [.notice (.progressed r.nit r.fmin r.step test),
      .notice (.finished .gradientTolerance r.nit r.fmin r.nfev r.njev)],
      some (.converged .gradientTolerance r.fmin)⟩ := by
  unfold slopeTest at h
  simp [testGradient, h, hg, Turn.andThen, proceed, converge]

theorem testGradient_of_not_lt {test : K} (h : r.slopeTest = .ok test)
    (hg : ¬ test < s.settings.gtol) :
    r.testGradient s = ⟨r, [.notice (.progressed r.nit r.fmin r.step test)], none⟩ := by
  unfold slopeTest at h
  simp [testGradient, h, hg, Turn.andThen, proceed]

theorem redirect_of_error {e : Fault K}
    (h : quotient (r.weight s.settings.method) r.squaredNorm = .error e) :
    r.redirect s = ⟨r, [], some (.failed e)⟩ := by
  simp [redirect, h]

theorem redirect_of_ok {gamma : K}
    (h : quotient (r.weight s.settings.method) r.squaredNorm = .ok gamma) :
    r.redirect s = ⟨r.turned gamma,
      if dot (r.combined gamma) (-r.u) ≤ 0.0 then [.notice (.restarted r.nit)] else [], none⟩ := by
  unfold redirect turned
  simp only [h]
  by_cases hc : dot (r.combined gamma) (-r.u) ≤ 0.0
  · rw [if_pos hc, if_pos hc, if_pos (by exact hc)]
    rfl
  · rw [if_neg hc, if_neg hc, if_neg (by exact hc)]
    rfl

theorem checked_eq (s : Setup K n) (v : Bool) :
    (if v then verify s else (·.proceed [])) = checked s v := by
  funext r
  cases v <;> rfl

theorem iterate_eq : iterate s v k r = ({ r with nit := k }.tested s v).andThen (redirect s) := by
  unfold iterate tested
  rw [checked_eq]
  simp only [Turn.andThen_assoc]

/-- With a checked gradient, one test is left. -/
theorem testGradient_cases (hd : r.Differentiates s v r') :
    (∃ e, (r'.testGradient s).exit = some e ∧ r.Ends s v (r'.testGradient s).run e) ∨
      ((r'.testGradient s).exit = none ∧ r.Passes s v (r'.testGradient s).run) := by
  cases ht : r'.slopeTest with
  | error e =>
    rw [testGradient_of_error ht]
    exact .inl ⟨_, rfl, .testFails hd ht⟩
  | ok test =>
    by_cases hg : test < s.settings.gtol
    · rw [testGradient_of_lt ht hg]
      exact .inl ⟨_, rfl, .gradientTolerance hd ht hg⟩
    · rw [testGradient_of_not_lt ht hg]
      exact .inr ⟨rfl, hd, test, ht, hg⟩

theorem tested_cases (s : Setup K n) (v : Bool) (r : Run K n) :
    (∃ e, (r.tested s v).exit = some e ∧ r.Ends s v (r.tested s v).run e) ∨
      ((r.tested s v).exit = none ∧ r.Passes s v (r.tested s v).run) := by
  unfold tested
  by_cases hz : abs r.squaredNorm < s.settings.tiny
  · rw [testZero_of_lt hz, Turn.andThen_of_some rfl]
    exact .inl ⟨_, rfl, .zeroGradient hz⟩
  rw [testZero_of_not_lt hz, Turn.andThen_of_none rfl]
  dsimp only [proceed]
  cases hs : (r.searched s).found.outcome with
  | error e =>
    rw [descend_of_error hs, Turn.andThen_of_some rfl]
    exact .inl ⟨_, rfl, .searchFails hz hs⟩
  | ok step =>
    have hs : r.Searches s step := ⟨hz, hs⟩
    rw [descend_of_ok hs.found, Turn.andThen_of_none rfl]
    dsimp only [proceed]
    by_cases hf : (r.moved s step).Steady s
    · rw [testValue_of_steady hf, Turn.andThen_of_some rfl]
      exact .inl ⟨_, rfl, .functionTolerance hs hf⟩
    rw [testValue_of_not_steady hf, Turn.andThen_of_none rfl]
    dsimp only [proceed]
    cases hg : s.vectorGradient (r.moved s step).x with
    | error e =>
      rw [differentiate_of_error hg, Turn.andThen_of_some rfl]
      exact .inl ⟨_, rfl, .gradientFails hs hf hg⟩
    | ok u =>
      rw [differentiate_of_ok hg, Turn.andThen_of_none rfl]
      dsimp only [proceed]
      cases hc : (((r.moved s step).differentiated u).checked s v).exit with
      | some e =>
        rw [Turn.andThen_of_some hc]
        obtain ⟨fault, rfl, hv, hr, hc'⟩ := checked_exit hc
        refine .inl ⟨_, hc, ?_⟩
        rw [hr]
        exact .checkFails hs hf hg hv hc'
      | none =>
        rw [Turn.andThen_of_none hc]
        exact testGradient_cases (.intro hs hf hg hc)

/-- All that an iteration can do. -/
theorem iterate_cases (s : Setup K n) (v : Bool) (k : Nat) (r : Run K n) :
    let t := iterate s v k r
    (∃ e, t.exit = some e ∧ { r with nit := k }.Ends s v t.run e) ∨
      (t.exit = none ∧ { r with nit := k }.Completes s v t.run) := by
  rw [iterate_eq]
  rcases tested_cases s v { r with nit := k } with ⟨e, he, hends⟩ | ⟨hn, hp⟩
  · rw [Turn.andThen_of_some he]
    exact .inl ⟨e, he, hends⟩
  · rw [Turn.andThen_of_none hn]
    dsimp only
    cases hw : quotient (({ r with nit := k }.tested s v).run.weight s.settings.method)
      ({ r with nit := k }.tested s v).run.squaredNorm with
    | error e =>
      rw [redirect_of_error hw]
      exact .inl ⟨_, rfl, .weightFails hp hw⟩
    | ok gamma =>
      rw [redirect_of_ok hw]
      exact .inr ⟨rfl, .intro hp hw⟩

end Run
end Descent
