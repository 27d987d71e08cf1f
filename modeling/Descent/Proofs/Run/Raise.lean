import Mathlib
import Descent.Proofs.Run.Beside
import Descent.Proofs.Run.Exact
import Descent.Proofs.Search.Raise

/-! A constant added to an objective: in exact arithmetic the parts of a run make the same calls and
leave the same run, with values that are greater by the constant. Only the two tests that compare
with absolute values can tell the difference. -/
namespace Descent
variable {K : Type} {n : ℕ}

section
variable [Add K] (C : K)

/-- The objective with a constant added to its values. -/
def Objective.raise (f : Objective K n) : Objective K n := fun x => (f x).map (· + C)

def History.raise (h : History K n) : History K n := { h with values := h.values.map (· + C) }

def Run.raise (r : Run K n) : Run K n :=
  { r with
    fx := r.fx + C, fold := r.fold + C, fmin := r.fmin + C
    history := r.history.map (.raise C) }

def Exit.raise : Exit K → Exit K
  | converged status value => converged status (value + C)
  | exhausted value => exhausted (value + C)
  | failed e => failed e

theorem History.push_raise (h : History K n) (value : K) (point step : Vector K n) :
    (h.push ⟨value, point, step⟩).raise C = (h.raise C).push ⟨value + C, point, step⟩ := by
  simp [raise, push]

end

def Setup.raise [Scalar K] (C : K) (s : Setup K n) : Setup K n :=
  { s with objective := s.objective.raise C }

variable [Field K] [LinearOrder K] [SquareRoot K] {C : K}

theorem centralQuotient_raise (a b c d h : K) :
    centralQuotient (a + C) (b + C) (c + C) (d + C) h = centralQuotient a b c d h := by
  have hsum : a + C - 8.0 * (b + C) + 8.0 * (c + C) - (d + C) = a - 8.0 * b + 8.0 * c - d := by
    generalize (8.0 : K) = m
    ring
  unfold centralQuotient
  rw [hsum]

theorem derivative_raise (f : K → Except (Fault K) K) (x h : K) :
    derivative (fun t => (f t).map (· + C)) x h = derivative f x h := by
  have hmap : derivative (fun t => (f t).map (· + C)) x h = (derivative f x h).map id := by
    unfold derivative
    dsimp only
    apply ite_eq_apply Iff.rfl
    · rfl
    apply Traced.map_bind (r := derivative.sample f _)
    intro a
    apply Traced.map_bind (r := derivative.sample f _)
    intro b
    apply Traced.map_bind (r := derivative.sample f _)
    intro c
    apply Traced.map_bind (r := derivative.sample f _)
    intro d
    rw [centralQuotient_raise, Traced.map_id]
  rw [hmap, Traced.map_id]

namespace GradientCheck
variable {f : Objective K n} {g : List K} {x : Vector K n} {o : Options K}

theorem component_raise (k : Fin n) (s : State K n) :
    component (f.raise C) g x o k s = component f g x o k s := by
  have hd : derivative (fun t => f.raise C (x.set k t)) x[k] o.step =
      derivative (fun t => f (x.set k t)) x[k] o.step := derivative_raise _ _ _
  unfold component
  dsimp only
  rw [hd]

theorem components_raise (ks : List (Fin n)) (s : State K n) :
    components (f.raise C) g x o ks s = components f g x o ks s := by
  induction ks generalizing s with
  | nil => rfl
  | cons k ks ih =>
    rw [components, components, component_raise]
    simp only [ih]

/-- A check of the gradient does not see the constant. -/
theorem run_raise (work : Vector K n) : run (f.raise C) g x o work = run f g x o work :=
  components_raise _ _

end GradientCheck

/-- The run converges within a tolerance that is not zero. -/
inductive Exit.Tolerated (a : Settings K) : Exit K → Prop
  | value {value : K} (h : a.ftol ≠ 0) : Tolerated a (.converged .functionTolerance value)
  | gradient {value : K} (h : a.gtol ≠ 0) : Tolerated a (.converged .gradientTolerance value)

/-- Two runs differ by the constant until one of them ends within a tolerance. -/
def Coupling.offset (C : K) (a : Settings K) : Coupling K n where
  runs r r' := r' = r.raise C ∧ r.search.strategy.Offsets
  exits e e' := e' = e.raise C
  first := Exit.Tolerated a
  second := Exit.Tolerated a

theorem Step.raise_inj {step step' : Step K} : step.raise C = step'.raise C ↔ step = step' := by
  constructor
  · intro h
    obtain ⟨⟨t, value⟩, nfev, njev⟩ := step
    obtain ⟨⟨t', value'⟩, nfev', njev'⟩ := step'
    simpa [raise] using h
  · rintro rfl
    rfl

namespace Run
variable {s : Setup K n} {v : Bool} {r r' : Run K n}

theorem found_raise (hs : r.search.strategy.Offsets) :
    ((r.raise C).searched (s.raise C)).found = (r.searched s).found.map (.raise C) := by
  have h := hs C r.search.searches (.through s.objective s.gradient r.x r.u) r.fold
  exact congrArg (Traced.mapEvents (Probe.toEvent r.x r.u)) h

/-- Searches keep their counts, and these do not see the constant. -/
theorem searched_raise (hs : r.search.strategy.Offsets) :
    ((r.raise C).searched (s.raise C)).search = (r.searched s).search := by
  have h : ((r.raise C).searched (s.raise C)).search =
      r.search.after ((r.raise C).searched (s.raise C)).found.outcome := rfl
  have h' : (r.searched s).search = r.search.after (r.searched s).found.outcome := rfl
  rw [h, h', found_raise hs, Traced.map]
  cases (r.searched s).found.outcome with
  | error e => rfl
  | ok step => rfl

theorem searches_raise (hs : r.search.strategy.Offsets) (step : Step K) :
    (r.raise C).Searches (s.raise C) (step.raise C) ↔ r.Searches s step := by
  have hfound : ((r.raise C).searched (s.raise C)).found.outcome = .ok (step.raise C) ↔
      (r.searched s).found.outcome = .ok step := by
    rw [found_raise hs, Traced.map]
    cases (r.searched s).found.outcome with
    | error e => simp [Except.map]
    | ok step' => simp [Except.map, Step.raise_inj]
  constructor
  · rintro ⟨hz, hf⟩
    exact ⟨hz, hfound.mp hf⟩
  · rintro ⟨hz, hf⟩
    exact ⟨hz, hfound.mpr hf⟩

theorem moved_raise (hs : r.search.strategy.Offsets) (step : Step K) :
    (r.raise C).moved (s.raise C) (step.raise C) = (r.moved s step).raise C := by
  let pushed (value : K) (h : History K n) : History K n :=
    h.push ⟨value, along r.x r.u step.step, scale step.step r.u⟩
  have hhistory : (r.history.map (History.raise C)).map (pushed (step.value + C)) =
      (r.history.map (pushed step.value)).map (History.raise C) := by
    rw [Option.map_map, Option.map_map]
    apply congrArg (Option.map · r.history)
    funext h
    exact (History.push_raise C h _ _ _).symm
  have hmoved : (r.raise C).moved (s.raise C) (step.raise C) =
      { (r.moved s step).raise C with
        search := ((r.raise C).searched (s.raise C)).search
        history := (r.history.map (History.raise C)).map (pushed (step.value + C)) } := rfl
  rw [hmoved, searched_raise hs, hhistory]
  rfl

/-- Both values grow by the constant, and their difference does not see it. -/
theorem steady_raise (h : s.settings.ftol = 0) : (r.raise C).Steady (s.raise C) ↔ r.Steady s := by
  unfold Steady
  have hdiff : (r.raise C).fmin - (r.raise C).fx = r.fmin - r.fx := add_sub_add_right_eq_sub _ _ _
  have hftol : (s.raise C).settings.ftol = 0 := h
  rw [hdiff, h, hftol, zero_mul, zero_mul]

theorem verify_raise (s : Setup K n) (r : Run K n) : (r.raise C).verify (s.raise C) =
    ⟨(r.verify s).run.raise C, (r.verify s).events, (r.verify s).exit⟩ := by
  have hc : GradientCheck.run (s.raise C).objective (r.raise C).u.toList (r.raise C).x
      ⟨s.settings.checkTol, s.settings.checkStep⟩ (r.raise C).x =
      GradientCheck.run s.objective r.u.toList r.x ⟨s.settings.checkTol, s.settings.checkStep⟩ r.x :=
    GradientCheck.run_raise _
  have hsettings : (s.raise C).settings = s.settings := rfl
  unfold verify
  rw [hsettings, hc]
  dsimp only
  split
  · rfl
  · rfl

theorem turned_raise (r : Run K n) (gamma : K) :
    (r.raise C).turned gamma = (r.turned gamma).raise C :=
  ite_eq_apply Iff.rfl rfl rfl

/-- A check that fails does so with the same fault. -/
theorem checked_raise (s : Setup K n) (v : Bool) (r : Run K n) :
    (r.raise C).checked (s.raise C) v =
      ⟨(r.checked s v).run.raise C, (r.checked s v).events, (r.checked s v).exit⟩ := by
  cases v with
  | false => rfl
  | true => exact verify_raise s r

variable [IsStrictOrderedRing K]

/-- Every part of an iteration keeps the difference, and only the tests for tolerances can end one
run alone. -/
theorem kept_offset (C : K) (s : Setup K n) (v : Bool) :
    (Coupling.offset C s.settings).Kept s (s.raise C) v where
  nit := by
    rintro r _ k ⟨rfl, hs⟩
    exact ⟨rfl, hs⟩
  testZero := by
    rintro r _ ⟨rfl, hs⟩
    by_cases hz : abs r.squaredNorm < s.settings.tiny
    · have hz' : abs (r.raise C).squaredNorm < s.settings.tiny := hz
      rw [testZero_of_lt hz, testZero_of_lt (s := s.raise C) hz']
      exact .alike ⟨rfl, hs⟩ (.some rfl) rfl
    · have hz' : ¬ abs (r.raise C).squaredNorm < s.settings.tiny := hz
      rw [testZero_of_not_lt hz, testZero_of_not_lt (s := s.raise C) hz']
      exact .alike ⟨rfl, hs⟩ .none rfl
  descend := by
    rintro r _ ⟨rfl, hs⟩
    have hf := found_raise (s := s) (C := C) hs
    have hs' : (r.searched s).search.strategy.Offsets := by
      rw [strategy_searched]
      exact hs
    cases ho : (r.searched s).found.outcome with
    | error e =>
      have ho' : ((r.raise C).searched (s.raise C)).found.outcome = .error e := by
        rw [hf, Traced.map, ho]
        rfl
      rw [descend_of_error ho, descend_of_error ho', searched_raise hs, hf]
      exact .alike ⟨rfl, hs'⟩ (.some rfl) rfl
    | ok step =>
      have ho' : ((r.raise C).searched (s.raise C)).found.outcome = .ok (step.raise C) := by
        rw [hf, Traced.map, ho]
        rfl
      rw [descend_of_ok ho, descend_of_ok ho', moved_raise hs, hf]
      exact .alike ⟨rfl, hs'⟩ .none rfl
  testValue := by
    rintro r _ ⟨rfl, hs⟩
    by_cases hf : r.Steady s
    · by_cases hf' : (r.raise C).Steady (s.raise C)
      · rw [testValue_of_steady hf, testValue_of_steady hf']
        exact .alike ⟨rfl, hs⟩ (.some rfl) rfl
      · have hne : s.settings.ftol ≠ 0 := fun h => hf' ((steady_raise h).mpr hf)
        rw [testValue_of_steady hf, testValue_of_not_steady hf']
        exact .shorter rfl (.value hne) ⟨rfl, hs⟩ (.refl _) List.prefix_rfl
    · by_cases hf' : (r.raise C).Steady (s.raise C)
      · have hne : s.settings.ftol ≠ 0 := fun h => hf ((steady_raise h).mp hf')
        rw [testValue_of_not_steady hf, testValue_of_steady hf']
        exact .longer rfl (.value hne) ⟨rfl, hs⟩ (.refl _) List.prefix_rfl
      · rw [testValue_of_not_steady hf, testValue_of_not_steady hf']
        exact .alike ⟨rfl, hs⟩ .none rfl
  differentiate := by
    rintro r _ ⟨rfl, hs⟩
    cases hg : s.vectorGradient r.x with
    | error e =>
      rw [differentiate_of_error hg, differentiate_of_error (s := s.raise C) (r := r.raise C) hg]
      exact .alike ⟨rfl, hs⟩ (.some rfl) rfl
    | ok u =>
      rw [differentiate_of_ok hg, differentiate_of_ok (s := s.raise C) (r := r.raise C) hg]
      exact .alike ⟨rfl, hs⟩ .none rfl
  checked := by
    rintro r _ ⟨rfl, hs⟩
    rw [checked_raise]
    have hs' : (r.checked s v).run.search.strategy.Offsets := by
      obtain ⟨evals, he⟩ := checked_run s v r
      rw [he]
      exact hs
    refine .alike ⟨rfl, hs'⟩ ?_ rfl
    cases he : (r.checked s v).exit with
    | none => exact .none
    | some e =>
      obtain ⟨fault, rfl, -, -, -⟩ := checked_exit he
      exact .some rfl
  testGradient := by
    rintro r _ ⟨rfl, hs⟩
    have ht := slopeTest_eq r
    have ht' := slopeTest_eq (r.raise C)
    have hne : ∀ {r : Run K n} {test : K}, r.slopeTest = .ok test → test < s.settings.gtol →
        s.settings.gtol ≠ 0 := fun ht hg h => not_slopeTest_lt h ht hg
    by_cases hg : scaledGradient r.x r.u / max r.fx 1 < s.settings.gtol
    · by_cases hg' : scaledGradient r.x r.u / max (r.raise C).fx 1 < s.settings.gtol
      · rw [testGradient_of_lt ht hg, testGradient_of_lt (s := s.raise C) ht' hg']
        exact .alike ⟨rfl, hs⟩ (.some rfl) rfl
      · rw [testGradient_of_lt ht hg, testGradient_of_not_lt (s := s.raise C) ht' hg']
        exact .shorter rfl (.gradient (hne ht hg)) ⟨rfl, hs⟩ (.refl _) List.prefix_rfl
    · by_cases hg' : scaledGradient r.x r.u / max (r.raise C).fx 1 < s.settings.gtol
      · rw [testGradient_of_not_lt ht hg, testGradient_of_lt (s := s.raise C) ht' hg']
        exact .longer rfl (.gradient (hne ht' hg')) ⟨rfl, hs⟩ (.refl _) List.prefix_rfl
      · rw [testGradient_of_not_lt ht hg, testGradient_of_not_lt (s := s.raise C) ht' hg']
        exact .alike ⟨rfl, hs⟩ .none rfl
  redirect := by
    rintro r _ ⟨rfl, hs⟩
    cases hw : quotient (r.weight s.settings.method) r.squaredNorm with
    | error e =>
      rw [redirect_of_error hw, redirect_of_error (s := s.raise C) (r := r.raise C) hw]
      exact .alike ⟨rfl, hs⟩ (.some rfl) rfl
    | ok gamma =>
      have hs' : (r.turned gamma).search.strategy.Offsets := by
        rw [(turned_alike r gamma).strategy]
        exact hs
      rw [redirect_of_ok hw, redirect_of_ok (s := s.raise C) (r := r.raise C) hw, turned_raise]
      exact .alike ⟨rfl, hs'⟩ .none rfl

end Run
end Descent
