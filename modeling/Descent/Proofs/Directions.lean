import Mathlib
import Descent.Proofs.Quadratic
import Descent.Proofs.Run.Faults
import Descent.Proofs.Run.Restarts

/-! In exact arithmetic every direction is the negative gradient, to which the last direction is
added with its weight if the sum descends; so every direction descends. -/
namespace Descent
open Matrix
variable {K : Type} [Field K] [LinearOrder K] {n : ℕ}

/-- The weight of the last direction, from the gradients before and after the step. -/
def Method.gamma (m : Method) (c c' : Fin n → K) : K :=
  match m with
  | .fletcherReeves => c' ⬝ᵥ c' / (c ⬝ᵥ c)
  | .polakRibiere => max 0 ((c' - c) ⬝ᵥ c') / (c ⬝ᵥ c)

/-- The next direction, from the last direction and the gradients before and after the step. -/
def Method.direction (m : Method) (c c' d : Fin n → K) : Fin n → K :=
  let e := m.gamma c c' • d - c'
  if c' ⬝ᵥ e < 0 then e else -c'

namespace Method
variable [IsStrictOrderedRing K] {c c' d : Fin n → K} (m : Method)

/-- Between orthogonal gradients both weights are the same. -/
theorem gamma_of_orthogonal (h : c ⬝ᵥ c' = 0) : m.gamma c c' = c' ⬝ᵥ c' / (c ⬝ᵥ c) := by
  cases m with
  | fletcherReeves => rfl
  | polakRibiere =>
    rw [gamma, sub_dotProduct, h, sub_zero, max_eq_right dot_self_nonneg]

/-- After a step to where the slope vanishes, the sum descends. -/
theorem descends_of_exact (hd : c' ⬝ᵥ d = 0) (hne : c' ≠ 0) :
    c' ⬝ᵥ (m.gamma c c' • d - c') < 0 := by
  rw [dotProduct_sub, dotProduct_smul, hd, smul_zero, zero_sub, neg_lt_zero]
  exact dot_self_pos hne

theorem direction_of_exact (hd : c' ⬝ᵥ d = 0) (hne : c' ≠ 0) :
    m.direction c c' d = m.gamma c c' • d - c' :=
  if_pos (m.descends_of_exact hd hne)

end Method

variable [IsStrictOrderedRing K] [SquareRoot K]

namespace Run
variable {s : Setup K n} {v : Bool} {r r' : Run K n} {gamma : K}

/-- Before a search, `g` is minus the gradient, and `h` is the direction, which descends unless it
is `g`. -/
structure Steers (s : Setup K n) (r : Run K n) : Prop where
  gradient : ∃ c, s.vectorGradient r.x = .ok c ∧ r.g = -c
  last : r.h = r.u
  descends : 0 < dot r.u r.g ∨ r.u = r.g

omit [IsStrictOrderedRing K] in
theorem Steers.eq_neg {c : Vector K n} (h : r.Steers s) (hc : s.vectorGradient r.x = .ok c) :
    r.g = -c := by
  obtain ⟨c', hc', hg⟩ := h.gradient
  rw [hc] at hc'
  cases hc'
  exact hg

theorem squaredNorm_of_neg {c : Vector K n} (hg : r.g = -c) :
    r.squaredNorm = c.get ⬝ᵥ c.get := by
  rw [squaredNorm, hg, dot_eq, get_neg, neg_dotProduct_neg]

/-- The weight that the code divides is that of the gradients. -/
theorem gamma_of_weight {c : Vector K n} (hg : r.g = -c) (m : Method)
    (h : quotient (r.weight m) r.squaredNorm = .ok gamma) :
    c.get ⬝ᵥ c.get ≠ 0 ∧ gamma = m.gamma c.get r.u.get := by
  have hn := squaredNorm_of_neg hg
  have hne : c.get ⬝ᵥ c.get ≠ 0 := by
    intro h0
    rw [hn, h0, quotient_zero] at h
    cases h
  rw [hn, quotient_of_ne hne] at h
  cases h
  refine ⟨hne, ?_⟩
  cases m with
  | fletcherReeves => rw [weight, Method.gamma, dot_eq]
  | polakRibiere =>
    rw [weight, Method.gamma, larger_eq, dot_eq, hg, get_add, get_neg, decimal_zero, max_comm,
      sub_eq_add_neg]

omit [IsStrictOrderedRing K] in
theorem get_combined (r : Run K n) (gamma : K) :
    (r.combined gamma).get = gamma • r.h.get - r.u.get := by
  have h : r.h.map (· * gamma) = scale gamma r.h := by
    rw [scale]
    congr 1
    funext t
    exact mul_comm t gamma
  rw [combined, h, get_add, get_scale, get_neg, sub_eq_add_neg]

theorem ascends_iff (r : Run K n) (gamma : K) : dot (r.combined gamma) (-r.u) ≤ 0.0 ↔
    ¬ r.u.get ⬝ᵥ (gamma • r.h.get - r.u.get) < 0 := by
  rw [dot_eq, get_neg, get_combined, dotProduct_neg, dotProduct_comm, decimal_zero, neg_nonpos,
    not_lt]

/-- The restart is the case in which the sum does not descend. -/
theorem get_turned (r : Run K n) (gamma : K) :
    (r.turned gamma).u.get =
      if r.u.get ⬝ᵥ (gamma • r.h.get - r.u.get) < 0 then gamma • r.h.get - r.u.get
      else -r.u.get := by
  unfold turned
  by_cases h : r.u.get ⬝ᵥ (gamma • r.h.get - r.u.get) < 0
  · rw [if_neg (fun ha => (ascends_iff r gamma).mp ha h), if_pos h]
    exact get_combined r gamma
  · rw [if_pos ((ascends_iff r gamma).mpr h), if_neg h]
    exact get_neg

theorem steers_turned (hg : s.vectorGradient r.x = .ok r.u) (gamma : K) :
    (r.turned gamma).Steers s := by
  unfold turned
  split
  · exact ⟨⟨r.u, hg, rfl⟩, rfl, .inr rfl⟩
  · rename_i h
    rw [decimal_zero, not_le] at h
    exact ⟨⟨r.u, hg, rfl⟩, rfl, .inl h⟩

/-- Before the next direction, the parts of the sum are in place. -/
theorem sum_of_passes {c : Vector K n} (hr : r.Steers s) (hc : s.vectorGradient r.x = .ok c)
    (hp : r.Passes s v r')
    (hw : quotient (r'.weight s.settings.method) r'.squaredNorm = .ok gamma) :
    c.get ⬝ᵥ c.get ≠ 0 ∧ s.vectorGradient r'.x = .ok r'.u ∧ r'.h = r.u ∧
      gamma = s.settings.method.gamma c.get r'.u.get := by
  obtain ⟨step, c', nfev, -, -, hc', heq⟩ := eq_of_differentiates hp.differentiates
  have hg : r'.g = -c := by
    rw [heq]
    exact hr.eq_neg hc
  obtain ⟨hne, hgamma⟩ := gamma_of_weight hg _ hw
  refine ⟨hne, ?_, ?_, hgamma⟩
  · rw [heq]
    exact hc'
  · rw [heq]
    exact hr.last

/-- One iteration turns from one direction to the next. -/
theorem direction_of_completes {c : Vector K n} (hr : r.Steers s)
    (hc : s.vectorGradient r.x = .ok c) (h : r.Completes s v r') :
    r'.Steers s ∧ c.get ⬝ᵥ c.get ≠ 0 ∧ ∃ c', s.vectorGradient r'.x = .ok c' ∧
      r'.u.get = s.settings.method.direction c.get c'.get r.u.get := by
  cases h with
  | intro hp hw =>
    rename_i r' gamma
    obtain ⟨hne, hc', hlast, hgamma⟩ := sum_of_passes hr hc hp hw
    refine ⟨steers_turned hc' _, hne, r'.u, ?_, ?_⟩
    · rw [(turned_alike _ _).x]
      exact hc'
    · rw [get_turned, hlast, hgamma]
      rfl

/-- A restart takes place only where the sum does not descend. -/
theorem not_descends_of_restarts {c : Vector K n} (hr : r.Steers s)
    (hc : s.vectorGradient r.x = .ok c) (h : r.Restarts s v r' gamma) :
    ¬ r'.u.get ⬝ᵥ (s.settings.method.gamma c.get r'.u.get • r.u.get - r'.u.get) < 0 := by
  obtain ⟨-, -, hlast, hgamma⟩ := sum_of_passes hr hc h.passes h.weight
  rw [← hgamma, ← hlast, ← ascends_iff]
  exact h.ascends

/-- A direction that is searched descends, if `tiny` keeps the gradient away from zero. -/
theorem slope_of_steers {c : Vector K n} (hr : r.Steers s) (hc : s.vectorGradient r.x = .ok c)
    (ht : 0 < s.settings.tiny) (hz : ¬ abs r.squaredNorm < s.settings.tiny) :
    c.get ⬝ᵥ r.u.get < 0 := by
  have hg := hr.eq_neg hc
  rcases hr.descends with hd | hu
  · rw [hg, dot_eq, get_neg, dotProduct_neg, dotProduct_comm] at hd
    exact neg_pos.mp hd
  · rw [hu, hg, get_neg, dotProduct_neg, neg_lt_zero]
    apply dot_self_pos
    intro h0
    apply hz
    rw [squaredNorm_of_neg hg, h0, dotProduct_zero, abs_eq, abs_zero]
    exact ht

end Run

/-- The slope of a line is the product of the gradient there with its direction. -/
theorem slope_of_vectorGradient {s : Setup K n} {x d c : Vector K n} {t : K}
    (hc : s.vectorGradient (along x d t) = .ok c) :
    (Line.through s.objective s.gradient x d).slope t = .ok (c.get ⬝ᵥ d.get) := by
  unfold Setup.vectorGradient at hc
  simp only [Line.through, Line.ofFunctions]
  cases hg : s.gradient (along x d t) with
  | error e =>
    rw [hg] at hc
    cases hc
  | ok value =>
    cases hv : value.toVector? n with
    | none =>
      simp only [hg, bind, Except.bind, hv] at hc
      cases hc
    | some u =>
      simp only [hg, bind, Except.bind, hv] at hc
      cases hc
      simp only [bind, Except.bind, slopeAlong, hv, dot_eq]

/-- The slope of a line at its start. -/
theorem slope_through {s : Setup K n} {x d c : Vector K n} (hc : s.vectorGradient x = .ok c) :
    (Line.through s.objective s.gradient x d).slope 0.0 = .ok (c.get ⬝ᵥ d.get) := by
  apply slope_of_vectorGradient
  rw [decimal_zero, along_zero]
  exact hc

omit [Field K] [LinearOrder K] [IsStrictOrderedRing K] [SquareRoot K] in
theorem Candidate.toPoint_ne_ascentDirection {c : Candidate K} :
    c.toPoint n ≠ .error .ascentDirection := by
  intro h
  unfold toPoint at h
  split at h
  · cases h
  · cases h
  · split at h
    · cases h
    · split at h
      · cases h
      · cases h

namespace Strategy
variable {f : Objective K n} {g : Gradient K n} {x d : Vector K n}

omit [IsStrictOrderedRing K] in
theorem ne_of_slopeAlong {value : Tensor K} (h : slopeAlong value d = .error .ascentDirection) :
    False := by
  unfold slopeAlong at h
  split at h
  · cases h
  · split at h
    · cases h
    · cases h

/-- A Wolfe search does not complain of a line that descends. -/
theorem wolfe_ne_ascentDirection (w : Wolfe.Options K) {k : ℕ} {hint : Option K} {slope : K}
    (hf : ∀ x, f x ≠ .error .ascentDirection) (hg : ∀ x, g x ≠ .error .ascentDirection)
    (hs : (Line.through f g x d).slope 0.0 = .ok slope) (hd : slope < 0) :
    ((wolfe w).search k (.through f g x d) hint).outcome ≠ .error .ascentDirection := by
  have hl : (Line.through f g x d).FailsOnly (· ≠ .ascentDirection) := by
    constructor
    · intro t
      constructor
      rintro e he rfl
      exact hf _ he
    · intro t
      constructor
      rintro e he rfl
      change ((g (along x d t)).bind fun value => slopeAlong value d) = _ at he
      cases hgt : g (along x d t) with
      | error e' =>
        rw [hgt] at he
        cases he
        exact hg _ hgt
      | ok value =>
        rw [hgt] at he
        exact ne_of_slopeAlong he
  intro h
  refine (Wolfe.failsOnly_search hl (.of_divisionByZero (by simp)) (by simp) ?_).fault h rfl
  intro d' hd' hge
  rw [hs] at hd'
  cases hd'
  rw [decimal_zero] at hge
  exact (not_le.mpr hd hge).elim

end Strategy

namespace Optimizer
variable {o : Optimizer K n} {debug : Bool} {x₀ : Vector K n} {r₀ r : Run K n} {k : ℕ}

omit [IsStrictOrderedRing K] in
theorem steers_begin (hb : o.Begins x₀ r₀) : r₀.Steers o.setup := by
  cases hb with
  | intro hf hg => exact ⟨⟨_, hg, rfl⟩, rfl, .inr rfl⟩

theorem steers_of_reaches (h : o.Reaches debug x₀ k r) : r.Steers o.setup := by
  obtain ⟨r₀, hb, -, hl, rfl⟩ := h
  have hs : (Run.after o.setup (o.setup.settings.verifies debug) r₀ k).Steers o.setup := by
    refine Run.live_keeps (I := fun _ r => r.Steers o.setup) (steers_begin hb) ?_ hl
    intro k r r' hr hc
    obtain ⟨c, hg, -⟩ := hr.gradient
    exact (Run.direction_of_completes (r := { r with nit := k }) ⟨hr.gradient, hr.last, hr.descends⟩
      hg hc).1
  exact ⟨hs.gradient, hs.last, hs.descends⟩

end Optimizer
end Descent
