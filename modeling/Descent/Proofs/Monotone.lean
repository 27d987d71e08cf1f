import Mathlib
import Descent.Proofs.Agreement
import Descent.Proofs.Search.Decrease

/-! In exact arithmetic the value never rises during a run, and with the Wolfe search it falls
whenever the point moves. -/
namespace Descent
variable {K : Type} [Field K] [LinearOrder K] [SquareRoot K] {n : ℕ}

/-- No search ends above the value at its start; a strict one ends below, unless it stays there. -/
def Strategy.Lowers (st : Strategy K) (strict : Prop) (f : Objective K n) (g : Gradient K n) :
    Prop :=
  ∀ ⦃k : ℕ⦄ ⦃x d : Vector K n⦄ ⦃hint : K⦄ ⦃step : Step K⦄,
    (st.search k (.through f g x d) (some hint)).outcome = .ok step →
      ∃ v, f x = .ok v ∧ step.value ≤ v ∧ (strict → step.step ≠ 0 → step.value < v)

section
variable [IsStrictOrderedRing K] (f : Objective K n) (g : Gradient K n)

theorem Strategy.wolfe_lowers (w : Wolfe.Options K) (strict : Prop) :
    (wolfe w).Lowers strict f g := by
  intro k x d hint step h
  obtain ⟨v, hv, hle, hlt⟩ := Wolfe.value_of_search (by simp) (Traced.eq_of_outcome h)
  have hv : f (along x d 0) = .ok v := hv
  rw [along_zero] at hv
  exact ⟨v, hv, hle, fun _ => hlt⟩

theorem Strategy.brent_lowers (b : Brent.Options K) {strict : Prop} (hn : ¬ strict) :
    (brent b).Lowers strict f g := by
  intro k x d hint step h
  obtain ⟨v, hv, hle⟩ := Brent.value_of_bracketAndSearch (Traced.eq_of_outcome h)
  have hv : f (along x d 0) = .ok v := hv
  rw [along_zero] at hv
  exact ⟨v, hv, hle, fun hst => (hn hst).elim⟩

theorem Strategy.lowers_of_standard {st : Strategy K}
    (hs : (∃ w, st = .wolfe w) ∨ ∃ b, st = .brent b) : st.Lowers (∃ w, st = .wolfe w) f g := by
  by_cases hw : ∃ w, st = .wolfe w
  · obtain ⟨w, rfl⟩ := hw
    exact wolfe_lowers f g w _
  · obtain ⟨b, rfl⟩ := hs.resolve_left hw
    exact brent_lowers f g b hw

end

/-- No value of the history is greater than the one before; in a strict one it is less, unless the
step is zero. -/
structure History.Falls (strict : Prop) (h : History K n) : Prop where
  le : ∀ {k : ℕ} {v w : K}, h.values[k]? = some v → h.values[k + 1]? = some w → w ≤ v
  lt : strict → ∀ {k : ℕ} {v w : K} {d : Vector K n}, h.values[k]? = some v →
    h.values[k + 1]? = some w → h.steps[k + 1]? = some d → d ≠ zeros n → w < v

/-- The value of the run is at most `top`, and so far its history falls. -/
structure Run.Falls (strict recording : Prop) (top : K) (r : Run K n) : Prop where
  value : r.fmin ≤ top
  history : recording → ∀ {h}, r.history = some h → h.Falls strict

namespace History
variable {strict : Prop} {f : Objective K n} {x₀ x d : Vector K n} {v w : K} {h : History K n}

theorem falls_start (v : K) (x₀ : Vector K n) :
    (empty.push ⟨v, x₀, zeros n⟩ : History K n).Falls strict := by
  constructor
  · intro k v' w _ hw
    simp [push, empty] at hw
  · intro _ k v' w d _ hw
    simp [push, empty] at hw

/-- One more value that is no greater than the last. -/
theorem falls_push (hf : h.Falls strict) (hs : h.steps.size = h.values.size)
    (hl : h.values[h.values.size - 1]? = some v) (hle : w ≤ v)
    (hlt : strict → d ≠ zeros n → w < v) : (h.push ⟨w, x, d⟩).Falls strict := by
  have hlast : ∀ {k : ℕ} {v' w' : K}, (h.values.push w)[k]? = some v' →
      (h.values.push w)[k + 1]? = some w' →
        (k + 1 = h.values.size ∧ v' = v ∧ w' = w) ∨
          (k + 1 ≠ h.values.size ∧ h.values[k]? = some v' ∧ h.values[k + 1]? = some w') := by
    intro k v' w' hv hw
    rw [Array.getElem?_push] at hv hw
    by_cases hk : k + 1 = h.values.size
    · rw [if_pos hk] at hw
      rw [if_neg (by omega)] at hv
      rw [← hk, Nat.add_sub_cancel, hv] at hl
      cases hw
      cases hl
      exact .inl ⟨hk, rfl, rfl⟩
    · rw [if_neg hk] at hw
      obtain ⟨hlt, -⟩ := Array.getElem?_eq_some_iff.mp hw
      rw [if_neg (by omega)] at hv
      exact .inr ⟨hk, hv, hw⟩
  constructor
  · intro k v' w' hv hw
    rcases hlast hv hw with ⟨-, rfl, rfl⟩ | ⟨-, hv, hw⟩
    · exact hle
    · exact hf.le hv hw
  · intro hst k v' w' d' hv hw hd hne
    simp only [push, Array.getElem?_push] at hd
    rcases hlast hv hw with ⟨hk, rfl, rfl⟩ | ⟨hk, hv, hw⟩
    · rw [if_pos (by omega)] at hd
      cases hd
      exact hlt hst hne
    · rw [if_neg (by omega)] at hd
      exact hf.lt hst hv hw hd hne

end History

namespace Run
variable {s : Setup K n} {x₀ : Vector K n} {strict : Prop} {recording : Bool} {top : K}
  {r r' : Run K n} {step : Step K}

theorem falls_alike (h : r.Alike r') (hr : r.Falls strict recording top) :
    r'.Falls strict recording top := by
  constructor
  · rw [h.fmin]
    exact hr.value
  · rw [h.history]
    exact hr.history

/-- A search lowers the value, and strictly if it is a strict one that moves. -/
theorem value_of_searches (hl : r.search.strategy.Lowers strict s.objective s.gradient)
    (hr : s.objective r.x = .ok r.fmin) (h : r.Searches s step) :
    step.value ≤ r.fmin ∧ (strict → step.step ≠ 0 → step.value < r.fmin) := by
  obtain ⟨v, hv, hle, hlt⟩ := hl h.found
  rw [hr] at hv
  cases hv
  exact ⟨hle, hlt⟩

theorem falls_moved [IsStrictOrderedRing K]
    (hl : r.search.strategy.Lowers strict s.objective s.gradient)
    (ha : r.Agrees s.objective x₀ recording) (hr : r.Falls strict recording top)
    (h : r.Searches s step) : (r.moved s step).Falls strict recording top := by
  obtain ⟨hle, hlt⟩ := value_of_searches hl ha.value h
  refine ⟨hle.trans hr.value, ?_⟩
  intro ht hist hh
  obtain ⟨old, ho, hc⟩ := ha.history ht
  rw [moved, ho] at hh
  cases hh
  apply History.falls_push (hr.history ht ho) (by rw [hc.steps_size, hc.values_size])
    (hc.last_value ha.value) hle
  intro hst hne
  apply hlt hst
  rintro h0
  apply hne
  rw [h0]
  apply get_injective
  simp

end Run

namespace Optimizer
variable {o : Optimizer K n} {debug : Bool} {x₀ : Vector K n} {r₀ r r' : Run K n} {strict : Prop}
  {top : K}

/-- A run of that optimizer agrees with its objective and has not risen above `top`. -/
structure Sinks (o : Optimizer K n) (x₀ : Vector K n) (strict : Prop) (top : K) (r : Run K n) :
    Prop where
  agrees : r.Agrees o.setup.objective x₀ o.setup.settings.history
  falls : r.Falls strict o.setup.settings.history top

theorem sinks_begin (hb : o.Begins x₀ r₀) : o.Sinks x₀ strict r₀.fmin r₀ := by
  refine ⟨agrees_begin hb, ?_⟩
  cases hb with
  | intro hf hg =>
    refine ⟨le_rfl, ?_⟩
    intro ht h hh
    rw [begin, if_pos ht] at hh
    cases hh
    exact History.falls_start _ _

theorem sinks_alike (h : r.Alike r') (hr : o.Sinks x₀ strict top r) : o.Sinks x₀ strict top r' :=
  ⟨Run.agrees_alike h hr.agrees, Run.falls_alike h hr.falls⟩

section
variable [IsStrictOrderedRing K]
  (hr : o.memory.search.strategy.Reports o.setup.objective o.setup.gradient)
  (hl : o.memory.search.strategy.Lowers strict o.setup.objective o.setup.gradient)
include hr hl

omit [IsStrictOrderedRing K] hr in
theorem sinks_lowers {k : ℕ} {step : Step K} (hreach : o.Reaches debug x₀ k r)
    (hI : o.Sinks x₀ strict top r) (h : r.Searches o.setup step) :
    step.value ≤ r.fmin ∧ (strict → step.step ≠ 0 → step.value < r.fmin) := by
  rw [← strategy_of_reaches hreach] at hl
  exact Run.value_of_searches hl hI.agrees.value h

theorem sinks_moved {k : ℕ} {step : Step K} (hreach : o.Reaches debug x₀ k r)
    (hI : o.Sinks x₀ strict top r) (h : r.Searches o.setup step) :
    o.Sinks x₀ strict top (r.moved o.setup step) := by
  rw [← strategy_of_reaches hreach] at hr hl
  exact ⟨Run.agrees_moved hr hI.agrees h, Run.falls_moved hl hI.agrees hI.falls h⟩

theorem reaches_sinks {k : ℕ} (h : o.Reaches debug x₀ k r) : ∃ top, o.Sinks x₀ strict top r := by
  obtain ⟨r₀, hb, -⟩ := id h
  refine ⟨r₀.fmin, reaches_keeps ?_ sinks_alike (sinks_moved hr hl) h⟩
  intro r hb'
  rw [begins_unique hb hb']
  exact sinks_begin hb'

theorem finish_sinks (debug : Bool) (hb : o.Begins x₀ r₀) :
    o.Sinks x₀ strict r₀.fmin (o.finish debug r₀).run :=
  finish_keeps hb (sinks_begin hb) sinks_alike (sinks_moved hr hl)

end

/-- The objective never goes up: each search ends at a value no greater than the one it starts
from, which a Wolfe search that moves goes below, the next search starts there, and no run ends
above its first value. The history tells the same. -/
theorem minimize_falls [IsStrictOrderedRing K] (o : Optimizer K n) (debug : Bool)
    (c : Candidate K) {x₀ : Vector K n} {fx : K} {gradient : Vector K n}
    (hs : (∃ w, o.memory.search.strategy = .wolfe w) ∨ ∃ b, o.memory.search.strategy = .brent b)
    (hc : c.toPoint n = .ok x₀) (hf : o.setup.objective x₀ = .ok fx)
    (hg : o.setup.vectorGradient x₀ = .ok gradient) :
    (∀ k r step, o.Reaches debug x₀ k r → r.Searches o.setup step →
      o.setup.objective r.x = .ok r.fmin ∧
        o.setup.objective (along r.x r.u step.step) = .ok step.value ∧ step.value ≤ r.fmin ∧
        ((∃ w, o.memory.search.strategy = .wolfe w) → step.step ≠ 0 → step.value < r.fmin) ∧
        ∀ r', o.Reaches debug x₀ (k + 1) r' →
          r'.x = along r.x r.u step.step ∧ r'.fmin = step.value) ∧
    ∃ report fmin, o.minimize debug c = .ok report ∧
      report.optimizer.memory.fmin = some fmin ∧ fmin ≤ fx ∧
      (o.setup.settings.history = true → ∃ h, report.optimizer.memory.history = some h ∧
        h.Connects o.setup.objective x₀ report.point ∧
        h.Falls (∃ w, o.memory.search.strategy = .wolfe w)) := by
  have hr := Strategy.reports_of_standard hs o.setup.objective o.setup.gradient
  have hl := Strategy.lowers_of_standard o.setup.objective o.setup.gradient hs
  constructor
  · intro k r step hreach hsearch
    obtain ⟨top, hI⟩ := reaches_sinks hr hl hreach
    have hm := sinks_moved hr hl hreach hI hsearch
    obtain ⟨hle, hlt⟩ := sinks_lowers hl hreach hI hsearch
    refine ⟨hI.agrees.value, hm.agrees.value, hle, hlt, ?_⟩
    intro r' hreach'
    obtain ⟨step', hsearch', ha⟩ := searches_of_reaches hreach hreach'
    rw [Run.searches_unique hsearch hsearch']
    exact ⟨ha.x, ha.fmin⟩
  · have hb : o.Begins x₀ (o.begin x₀ fx gradient) := .intro hf hg
    have hI := finish_sinks hr hl debug hb
    obtain ⟨hpoint, -, hopt, -⟩ := minimizeFrom_of_begins debug hb
    refine ⟨_, (o.finish debug (o.begin x₀ fx gradient)).run.fmin, minimize_of_toPoint hc, ?_,
      hI.falls.value, ?_⟩
    · rw [hopt]
      rfl
    · intro ht
      obtain ⟨h, hh, hconnects⟩ := hI.agrees.history ht
      rw [hopt, hpoint]
      exact ⟨h, hh, hconnects, hI.falls.history ht hh⟩

theorem minimize_falls_bowl :
    let o : Optimizer ℚ 2 := .ofQuadratic .bowl (.wolfe .standard)
    ∃ report fmin, o.minimize false (.ofVector #v[3, 2]) = .ok report ∧
      report.optimizer.memory.fmin = some fmin ∧ fmin ≤ Quadratic.bowl.value ![3, 2] ∧
      ∃ h, report.optimizer.memory.history = some h ∧ h.Falls True := by
  intro o
  obtain ⟨-, report, fmin, hm, hf, hle, hh⟩ := minimize_falls o false (.ofVector #v[3, 2])
    (.inl ⟨_, rfl⟩) (Candidate.toPoint_ofVector _) rfl (Setup.vectorGradient_quadratic rfl _)
  obtain ⟨h, hm', -, hfalls⟩ := hh rfl
  refine ⟨report, fmin, hm, hf, ?_, h, hm', ?_⟩
  · rwa [get_pair] at hle
  · exact ⟨hfalls.le, fun _ => hfalls.lt ⟨_, rfl⟩⟩

end Optimizer
end Descent
