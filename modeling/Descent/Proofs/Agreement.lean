import Mathlib
import Descent.Proofs.Quadratic
import Descent.Proofs.Run.Record
import Descent.Proofs.Search.Brent
import Descent.Proofs.Search.Wolfe

/-! The value that a run keeps is always that of the objective at the point it keeps, and its
history consists of such pairs, one step after the other. -/
namespace Descent
variable {K : Type} [Scalar K] {n : Nat}

/-- The value that a search reports is that at the point it moves to. -/
def Strategy.Reports (st : Strategy K) (f : Objective K n) (g : Gradient K n) : Prop :=
  ∀ ⦃k : Nat⦄ ⦃x d : Vector K n⦄ ⦃hint : Option K⦄ ⦃step : Step K⦄,
    (st.search k (.through f g x d) hint).outcome = .ok step →
      f (along x d step.step) = .ok step.value

theorem Strategy.wolfe_reports (w : Wolfe.Options K) (f : Objective K n) (g : Gradient K n) :
    (wolfe w).Reports f g := by
  intro k x d hint step h
  exact Wolfe.liesOn_search (Traced.eq_of_outcome h)

theorem Strategy.brent_reports (b : Brent.Options K) (f : Objective K n) (g : Gradient K n) :
    (brent b).Reports f g := by
  intro k x d hint step h
  exact Brent.liesOn_bracketAndSearch (Traced.eq_of_outcome h)

theorem Strategy.reports_of_standard {st : Strategy K}
    (hs : (∃ w, st = .wolfe w) ∨ ∃ b, st = .brent b) (f : Objective K n) (g : Gradient K n) :
    st.Reports f g := by
  rcases hs with ⟨w, rfl⟩ | ⟨b, rfl⟩
  · exact wolfe_reports w f g
  · exact brent_reports b f g

/-- The history of a way from `x₀` to `x`: values of the objective, and the steps between them. -/
structure History.Connects (f : Objective K n) (x₀ x : Vector K n) (h : History K n) : Prop where
  values_size : h.values.size = h.iterates.size
  steps_size : h.steps.size = h.iterates.size
  first : h.iterates[0]? = some x₀
  rest : h.steps[0]? = some (zeros n)
  value : ∀ {k : Nat} {y : Vector K n} {w : K}, h.iterates[k]? = some y →
    h.values[k]? = some w → f y = .ok w
  step : ∀ {k : Nat} {y z d : Vector K n}, h.iterates[k]? = some y → h.iterates[k + 1]? = some z →
    h.steps[k + 1]? = some d → z = y + d
  last : h.iterates[h.iterates.size - 1]? = some x

namespace History
variable {f : Objective K n} {x₀ x y d : Vector K n} {w : K} {h : History K n}

theorem Connects.size_pos (hc : h.Connects f x₀ x) : 0 < h.iterates.size := by
  obtain ⟨hpos, -⟩ := Array.getElem?_eq_some_iff.mp hc.first
  exact hpos

theorem connects_start (hf : f x₀ = .ok w) :
    (empty.push ⟨w, x₀, zeros n⟩ : History K n).Connects f x₀ x₀ where
  values_size := rfl
  steps_size := rfl
  first := rfl
  rest := rfl
  value := by
    intro k y w' hy hw
    cases k with
    | zero =>
      cases hy
      cases hw
      exact hf
    | succ k => simp [push, empty] at hy
  step := by
    intro k y z d _ hz _
    simp [push, empty] at hz
  last := rfl

/-- A step to a point with its value is one more entry. -/
theorem connects_push (hc : h.Connects f x₀ x) (hf : f y = .ok w) (hy : y = x + d) :
    (h.push ⟨w, y, d⟩).Connects f x₀ y := by
  have hpos := hc.size_pos
  have hv := hc.values_size
  have hs := hc.steps_size
  constructor
  · simp [push, hv]
  · simp [push, hs]
  · simp only [push, Array.getElem?_push]
    rw [if_neg (by omega)]
    exact hc.first
  · simp only [push, Array.getElem?_push]
    rw [if_neg (by omega)]
    exact hc.rest
  · intro k z w' hz hw
    simp only [push, Array.getElem?_push] at hz hw
    rw [hv] at hw
    split at hz
    · rename_i hk
      rw [if_pos hk] at hw
      cases hz
      cases hw
      exact hf
    · rename_i hk
      rw [if_neg hk] at hw
      exact hc.value hz hw
  · intro k y' z d' hy' hz hd
    simp only [push, Array.getElem?_push] at hy' hz hd
    rw [hs] at hd
    split at hz
    · rename_i hk
      rw [if_pos hk] at hd
      rw [if_neg (by omega)] at hy'
      have hl := hc.last
      rw [← hk, Nat.add_sub_cancel, hy'] at hl
      cases hz
      cases hd
      cases hl
      exact hy
    · rename_i hk
      rw [if_neg hk] at hd
      split at hy'
      · rename_i hk'
        rw [Array.getElem?_eq_none (by omega)] at hz
        cases hz
      · exact hc.step hy' hz hd
  · simp [push]

/-- The last value of a history is that at its last point. -/
theorem Connects.last_value (hc : h.Connects f x₀ x) (hv : f x = .ok v) :
    h.values[h.values.size - 1]? = some v := by
  have hpos := hc.size_pos
  have hl := hc.last
  rw [← hc.values_size] at hl hpos
  have hval : h.values[h.values.size - 1]? = some h.values[h.values.size - 1] :=
    Array.getElem?_eq_getElem (by omega)
  have hw := hc.value hl hval
  rw [hv] at hw
  cases hw
  exact hval

end History

/-- A run is at a point with its value, and its history leads there. -/
structure Run.Agrees (f : Objective K n) (x₀ : Vector K n) (recording : Bool) (r : Run K n) :
    Prop where
  value : f r.x = .ok r.fmin
  history : recording = true → ∃ h, r.history = some h ∧ h.Connects f x₀ r.x

namespace Run
variable {s : Setup K n} {f : Objective K n} {x₀ : Vector K n} {recording : Bool} {r r' : Run K n}

theorem agrees_alike (h : r.Alike r') (hr : r.Agrees f x₀ recording) :
    r'.Agrees f x₀ recording := by
  constructor
  · rw [h.x, h.fmin]
    exact hr.value
  · rw [h.x, h.history]
    exact hr.history

theorem agrees_moved {step : Step K} (hs : r.search.strategy.Reports s.objective s.gradient)
    (hr : r.Agrees s.objective x₀ recording) (h : r.Searches s step) :
    (r.moved s step).Agrees s.objective x₀ recording := by
  have hv : s.objective (along r.x r.u step.step) = .ok step.value := hs h.found
  constructor
  · exact hv
  · intro ht
    obtain ⟨hist, hh, hc⟩ := hr.history ht
    refine ⟨_, by rw [moved, hh]; rfl, ?_⟩
    exact History.connects_push hc hv rfl

end Run

namespace Optimizer
variable {o : Optimizer K n} {debug : Bool} {x₀ : Vector K n} {r₀ : Run K n}

theorem agrees_begin (h : o.Begins x₀ r₀) :
    r₀.Agrees o.setup.objective x₀ o.setup.settings.history := by
  cases h with
  | intro hf hg =>
    refine ⟨hf, ?_⟩
    intro ht
    refine ⟨_, by rw [begin, if_pos ht], ?_⟩
    exact History.connects_start hf

theorem finish_agrees (debug : Bool) (h : o.Begins x₀ r₀)
    (hr : o.memory.search.strategy.Reports o.setup.objective o.setup.gradient) :
    (o.finish debug r₀).run.Agrees o.setup.objective x₀ o.setup.settings.history := by
  apply finish_keeps h (agrees_begin h) Run.agrees_alike
  intro k r step hreach hI hs
  exact Run.agrees_moved (by rwa [strategy_of_reaches hreach]) hI hs

/-- At every exit after the first gradient, the value kept is that at the point left behind, a value
that is returned is the same, and the history leads from the start to that point. This holds of the
two searches, and of any search that reports the value at the point it moves to. -/
theorem minimize_agrees (o : Optimizer K n) (debug : Bool) (c : Candidate K) {x₀ : Vector K n}
    {fx : K} {gradient : Vector K n}
    (hs : (∃ w, o.memory.search.strategy = .wolfe w) ∨ (∃ b, o.memory.search.strategy = .brent b) ∨
      o.memory.search.strategy.Reports o.setup.objective o.setup.gradient)
    (hc : c.toPoint n = .ok x₀) (hf : o.setup.objective x₀ = .ok fx)
    (hg : o.setup.vectorGradient x₀ = .ok gradient) :
    ∃ report fmin, o.minimize debug c = .ok report ∧
      report.optimizer.memory.fmin = some fmin ∧ o.setup.objective report.point = .ok fmin ∧
      (∀ value, report.outcome = .ok value → value = fmin) ∧
      (o.setup.settings.history = true → ∃ h, report.optimizer.memory.history = some h ∧
        h.Connects o.setup.objective x₀ report.point) := by
  have hr : o.memory.search.strategy.Reports o.setup.objective o.setup.gradient := by
    rcases or_assoc.mpr hs with hs | hr
    · exact Strategy.reports_of_standard hs _ _
    · exact hr
  have hb : o.Begins x₀ (o.begin x₀ fx gradient) := .intro hf hg
  have hfinish := finish_agrees debug hb hr
  obtain ⟨hpoint, hexit, hopt, -⟩ := minimizeFrom_of_begins debug hb
  refine ⟨_, (o.finish debug (o.begin x₀ fx gradient)).run.fmin, minimize_of_toPoint hc, ?_, ?_,
    ?_, ?_⟩
  · rw [hopt]
    rfl
  · rw [hpoint]
    exact hfinish.value
  · intro value hv
    apply value_of_finish hb
    left
    rw [← hexit]
    unfold Report.outcome at hv
    split at hv
    · rename_i status value' he
      cases hv
      exact ⟨status, he⟩
    · cases hv
    · cases hv
  · intro ht
    rw [hopt, hpoint]
    exact hfinish.history ht

theorem minimize_agrees_bowl :
    let o : Optimizer ℚ 2 := .ofQuadratic .bowl (.wolfe .standard)
    ∃ report fmin, o.minimize false (.ofVector #v[3, 2]) = .ok report ∧
      report.optimizer.memory.fmin = some fmin ∧ o.setup.objective report.point = .ok fmin ∧
      (∀ value, report.outcome = .ok value → value = fmin) ∧
      ∃ h, report.optimizer.memory.history = some h ∧
        h.Connects o.setup.objective #v[3, 2] report.point := by
  intro o
  obtain ⟨report, fmin, hm, hf, ho, hv, hh⟩ := minimize_agrees o false (.ofVector #v[3, 2])
    (.inl ⟨_, rfl⟩) (Candidate.toPoint_ofVector _) rfl (Setup.vectorGradient_quadratic rfl _)
  exact ⟨report, fmin, hm, hf, ho, hv, hh rfl⟩

end Optimizer
end Descent
