import Descent.Proofs.Run.Record
import Descent.Proofs.Search.Faults

/-! How a run can fail outside of its searches. -/
namespace Descent
variable {K : Type} [Scalar K] {n : Nat}

/-- A function fails, the gradient is not a vector of the right length or it is not that of the
objective, or there is a division by zero. -/
inductive Setup.Fails (s : Setup K n) : Fault K → Prop
  | objective {x : Vector K n} {e : Fault K} (h : s.objective x = .error e) : Fails s e
  | gradient {x : Vector K n} {e : Fault K} (h : s.gradient x = .error e) : Fails s e
  | gradientShape (given : Shape) : Fails s (.gradientShape n given)
  | stepNotPositive : Fails s .stepNotPositive
  | componentMissing (k : Int) (size : Nat) : Fails s (.componentMissing k size)
  | gradientMismatch (k : Nat) (expected actual diff : K) :
      Fails s (.gradientMismatch k expected actual diff)
  | divisionByZero : Fails s .divisionByZero

variable {s : Setup K n}

theorem Setup.fails_of_vectorGradient {x : Vector K n} {e : Fault K}
    (h : s.vectorGradient x = .error e) : s.Fails e := by
  unfold vectorGradient at h
  rcases Except.bind_eq_error.mp h with hg | ⟨value, -, h⟩
  · exact .gradient hg
  · split at h
    · cases h
    · cases h
      exact .gradientShape _

theorem failsOnly_derivative {P : Fault K → Prop} {f : K → Except (Fault K) K} {x h : K}
    (hf : ∀ t e, f t = .error e → P e) (hs : h ≤ 0.0 → P .stepNotPositive)
    (hz : ∀ {a e}, quotient a (12.0 * h) = .error e → P e) : (derivative f x h).FailsOnly P := by
  have hsample : ∀ t, (derivative.sample f t).FailsOnly P := fun t => ⟨hf t _⟩
  unfold derivative
  split
  · exact Traced.failsOnly_fail (hs ‹_›)
  apply Traced.failsOnly_bind (hsample _)
  intro a _
  apply Traced.failsOnly_bind (hsample _)
  intro b _
  apply Traced.failsOnly_bind (hsample _)
  intro c _
  apply Traced.failsOnly_bind (hsample _)
  intro d _
  exact ⟨hz⟩

namespace GradientCheck
variable {P : Fault K → Prop} {f : Objective K n} {g : List K} {x : Vector K n} {o : Options K}
  {e : Fault K}

/-- Each part of a check of `g` fails in these ways only. -/
structure FailsOnly (P : Fault K → Prop) (f : Objective K n) (g : List K) (o : Options K) :
    Prop where
  objective : ∀ {x : Vector K n} {e : Fault K}, f x = .error e → P e
  step : o.step ≤ 0.0 → P .stepNotPositive
  quotient : ∀ {a : K} {e : Fault K}, quotient a (12.0 * o.step) = .error e → P e
  missing : ∀ {k : Fin n}, g[k.val]? = none → P (.componentMissing k g.length)
  mismatch : ∀ {k : Nat} {expected actual diff : K}, P (.gradientMismatch k expected actual diff)

theorem fault_of_component (hp : FailsOnly P f g o) {k : Fin n} {t : State K n}
    (h : (component f g x o k t).outcome = .error e) : P e := by
  unfold component at h
  dsimp only at h
  split at h
  · rename_i e' hd
    cases h
    exact (failsOnly_derivative (fun t e => hp.objective) hp.step hp.quotient).fault hd
  · rename_i hg
    cases h
    exact hp.missing hg
  · split at h
    · cases h
      exact hp.mismatch
    · cases h

theorem fault_of_components (hp : FailsOnly P f g o) {ks : List (Fin n)} {t : State K n}
    (h : (components f g x o ks t).outcome = .error e) : P e := by
  induction ks generalizing t with
  | nil => cases h
  | cons k ks ih =>
    rw [components] at h
    split at h
    · exact ih h
    · exact fault_of_component hp h

theorem failsOnly_fails (s : Setup K n) (g : List K) (o : Options K) :
    FailsOnly s.Fails s.objective g o where
  objective h := .objective h
  step _ := .stepNotPositive
  quotient h := fault_of_quotient h ▸ .divisionByZero
  missing _ := .componentMissing _ _
  mismatch := .gradientMismatch _ _ _ _

end GradientCheck

namespace Run
variable {v : Bool} {r r' : Run K n} {e : Fault K}

/-- A run that fails does so in its search or outside of it. -/
theorem fails_of_ends (h : r.Ends s v r' (.failed e)) :
    (¬ abs r.squaredNorm < s.settings.tiny ∧ (r.searched s).found.outcome = .error e) ∨
      s.Fails e := by
  cases h with
  | searchFails hz hs => exact .inl ⟨hz, hs⟩
  | gradientFails hs hf hg => exact .inr (Setup.fails_of_vectorGradient hg)
  | checkFails hs hf hg hv hc => exact .inr (GradientCheck.fault_of_components (GradientCheck.failsOnly_fails s _ _) hc)
  | testFails hd ht =>
    rw [fault_of_quotient ht]
    exact .inr .divisionByZero
  | weightFails hp hw =>
    rw [fault_of_quotient hw]
    exact .inr .divisionByZero

end Run

namespace Optimizer
variable {o : Optimizer K n} {debug : Bool} {c : Candidate K} {e : Fault K}

/-- A run from a point fails before it begins, its budget is exhausted, or one of the iterations
that it comes to fails. -/
theorem cases_of_outcome {x₀ : Vector K n} (h : (o.minimizeFrom debug x₀).outcome = .error e) :
    (∃ nfev events, o.Abandons x₀ nfev events e) ∨ e = .notConverged o.setup.settings.maxIter ∨
      ∃ k r r', o.Reaches debug x₀ k r ∧
        r.Ends o.setup (o.setup.settings.verifies debug) r' (.failed e) ∧
        (o.minimizeFrom debug x₀).point = r'.x := by
  rcases begins_or_abandons o x₀ with ⟨r₀, hb⟩ | ⟨nfev, events, e', ha⟩
  · right
    obtain ⟨hpoint, hexit, hopt, -⟩ := minimizeFrom_of_begins debug hb
    unfold Report.outcome at h
    rw [hexit] at h
    rcases finish_cases debug hb with ⟨k, r, hr, he⟩ | ⟨-, -, hx⟩
    · split at h
      · cases h
      · rename_i value hx
        rw [hx] at he
        exact (Run.not_ends_exhausted he).elim
      · rename_i e' hx
        cases h
        rw [hx] at he
        exact .inr ⟨k, r, _, hr, he, hpoint⟩
    · rw [hx, hopt] at h
      cases h
      exact .inl rfl
  · rw [minimizeFrom_of_abandons debug ha] at h
    cases h
    exact .inl ⟨nfev, events, ha⟩

/-- How a call can fail: the point is refused, the budget is exhausted, or a search or another part
of a run fails. -/
theorem fails_of_minimize (h : (o.minimize debug c >>= Report.outcome) = .error e) :
    c.toPoint n = .error e ∨ e = .notConverged o.setup.settings.maxIter ∨ o.setup.Fails e ∨
      ∃ x₀ k r, o.Reaches debug x₀ k r ∧ ¬ abs r.squaredNorm < o.setup.settings.tiny ∧
        (r.searched o.setup).found.outcome = .error e := by
  cases hc : c.toPoint n with
  | error e' =>
    rw [minimize, hc] at h
    cases h
    exact .inl rfl
  | ok x₀ =>
    right
    rw [minimize_of_toPoint hc] at h
    rcases cases_of_outcome h with ⟨nfev, events, ha⟩ | he | ⟨k, r, r', hr, hends, -⟩
    · right
      left
      cases ha with
      | objective hf => exact .objective hf
      | gradient hf hg => exact Setup.fails_of_vectorGradient hg
    · exact .inl he
    · right
      rcases Run.fails_of_ends hends with ⟨hz, hs⟩ | hs
      · exact .inr ⟨x₀, k, r, hr, hz, hs⟩
      · exact .inl hs

end Optimizer
end Descent
