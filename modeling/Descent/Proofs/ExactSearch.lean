import Mathlib
import Descent.Proofs.Directions
import Descent.Proofs.Run.Exact
import Descent.Proofs.Search.Parabola

/-! Exact searches on a quadratic, and one iteration with such a search. -/
namespace Descent
open Matrix
variable {K : Type} [Field K] [LinearOrder K] [IsStrictOrderedRing K] [SquareRoot K] {n : ℕ}
  {q : Quadratic K n}

/-- The secant step from the slopes at zero and one. -/
def Strategy.secant : Strategy K where
  name := "secant"
  search _ l _ := do
    let a ← l.slopeAt 0.0
    let b ← l.slopeAt 1.0
    let v ← l.valueAt (a / (a - b))
    return ⟨⟨a / (a - b), v⟩, 1, 2⟩

theorem Line.IsParabola.outcome_secant {l : Line K} {v b a : K} (h : l.IsParabola v b a) (k : ℕ)
    (hint : Option K) : ∃ step, (Strategy.secant.search k l hint).outcome = .ok step ∧
      step.step = -b / (2 * a) ∧ l.value step.step = .ok step.value := by
  have h0 : l.slope 0.0 = .ok b := by
    rw [h.slope, decimal_zero, mul_zero, add_zero]
  have h1 : l.slope 1.0 = .ok (b + 2 * a) := by
    rw [h.slope, decimal_one, mul_one]
  have ht : b / (b - (b + 2 * a)) = -b / (2 * a) := by
    rw [sub_add_cancel_left, div_neg, neg_div]
  have hv := h.value (-b / (2 * a))
  refine ⟨⟨⟨-b / (2 * a), _⟩, 1, 2⟩, ?_, rfl, hv⟩
  unfold Strategy.secant
  dsimp only
  rw [Traced.outcome_bind h0, Traced.outcome_bind h1, ht, Traced.outcome_bind hv]
  rfl

namespace Run
variable {s : Setup K n} {v : Bool} {r r' : Run K n} {step : Step K}

/-- The search returns the least value of the line and the step to it, or it is a Wolfe search that
ends with an accepted step. Its first constant is at most a half, as the standard one is: else no
search accepts the lowest point of a parabola. -/
def Exact (q : Quadratic K n) (s : Setup K n) (r : Run K n) : Prop :=
  (∃ step, (r.searched s).found.outcome = .ok step ∧
    step.value = q.value (along r.x r.u step.step).get ∧
    ∀ t, q.value (along r.x r.u step.step).get ≤ q.value (along r.x r.u t).get) ∨
  ∃ w c found d es, r.search.strategy = .wolfe w ∧ w.c1 ≤ 0.5 ∧
    Wolfe.find (.through s.objective s.gradient r.x r.u) { w with previous := some r.fold } =
      ⟨.ok (c, found), es⟩ ∧ found.ending = .accepted d

/-- The search ends with a step to where the slope vanishes, and with the value there. -/
structure Lands (q : Quadratic K n) (s : Setup K n) (r : Run K n) (step : Step K) : Prop where
  found : (r.searched s).found.outcome = .ok step
  value : step.value = q.value (along r.x r.u step.step).get
  slope : q.grad (along r.x r.u step.step).get ⬝ᵥ r.u.get = 0

theorem slope_through_quadratic (x d : Vector K n) (t : K) :
    (Line.through q.objective q.gradient x d).slope t =
      .ok (q.grad (along x d t).get ⬝ᵥ d.get) := by
  change slopeAlong (.ofVector (.ofFn (q.grad (along x d t).get))) d = _
  rw [slopeAlong, Tensor.toVector?_ofVector]
  dsimp only
  rw [dot_eq, get_ofFn]

/-- The line of a quadratic is a parabola. -/
theorem isParabola_through (x d : Vector K n) :
    (Line.through q.objective q.gradient x d).IsParabola (q.value x.get)
      (q.grad x.get ⬝ᵥ d.get) (d.get ⬝ᵥ q.matrix *ᵥ d.get / 2) := by
  constructor
  · intro t
    change Except.ok (q.value (along x d t).get) = _
    rw [get_along, Quadratic.value_along]
    congr 1
    ring
  · intro t
    rw [slope_through_quadratic, get_along, Quadratic.grad_along, add_dotProduct, smul_dotProduct,
      dotProduct_comm (q.matrix *ᵥ d.get), smul_eq_mul]
    congr 1
    ring

theorem lands_of_exact (ho : s.objective = q.objective) (hg : s.gradient = q.gradient)
    (h : r.Exact q s) : ∃ step, r.Lands q s step := by
  rcases h with ⟨step, hf, hv, hle⟩ | ⟨w, c, found, d, es, hw, h1, hf, he⟩
  · refine ⟨step, hf, hv, ?_⟩
    apply Quadratic.slope_eq_zero
    intro t
    have ht := hle (step.step + t)
    have hget : (along r.x r.u (step.step + t)).get =
        (along r.x r.u step.step).get + t • r.u.get := by
      rw [get_along, get_along, add_smul, add_assoc]
    rwa [hget] at ht
  · rw [ho, hg] at hf
    rw [decimal_half] at h1
    have hp := isParabola_through (q := q) r.x r.u
    obtain ⟨-, -, hb⟩ := Wolfe.conditions_of_find hp hf
    have hd : r.u.get ≠ 0 := by
      intro h0
      rw [h0, dotProduct_zero] at hb
      exact lt_irrefl 0 hb
    have ha := q.pos _ hd
    obtain ⟨step, hs, ht, hv⟩ := Wolfe.search_parabola (o := { w with previous := some r.fold })
      hp (by positivity) h1 hf he
    have hfound : (r.searched s).found.outcome = .ok step := by
      change (r.search.strategy.search r.search.searches
        (.through s.objective s.gradient r.x r.u) (some r.fold)).outcome = _
      rw [hw, ho, hg]
      exact hs
    have hvertex := hp.value_vertex (by positivity)
    have hslope := hp.slope_vertex (by positivity)
    rw [← ht, ← hv] at hvertex
    rw [← ht, slope_through_quadratic] at hslope
    exact ⟨step, hfound, (Except.ok.inj hvertex).symm, Except.ok.inj hslope⟩

/-- The standard Wolfe search is exact where it ends with an accepted step. -/
theorem exact_of_accepted {c : Conditions K} {found : Found K} {d : K} {es : List (Probe K)}
    (hst : r.search.strategy = .wolfe .standard)
    (hf : Wolfe.find (.through s.objective s.gradient r.x r.u)
      { Wolfe.Options.standard with previous := some r.fold } = ⟨.ok (c, found), es⟩)
    (he : found.ending = .accepted d) : r.Exact q s := by
  have h1 : (Wolfe.Options.standard : Wolfe.Options K).c1 ≤ 0.5 := by
    unfold Wolfe.Options.standard
    norm_num
  exact .inr ⟨.standard, c, found, d, es, hst, h1, hf, he⟩

/-- One secant step is an exact search. -/
theorem exact_of_secant (ho : s.objective = q.objective) (hg : s.gradient = q.gradient)
    (hst : r.search.strategy = .secant) : r.Exact q s := by
  have hp := isParabola_through (q := q) r.x r.u
  obtain ⟨step, hf, ht, hv⟩ := hp.outcome_secant r.search.searches (some r.fold)
  have hfound : (r.searched s).found.outcome = .ok step := by
    change (r.search.strategy.search r.search.searches
      (.through s.objective s.gradient r.x r.u) (some r.fold)).outcome = _
    rw [hst, ho, hg]
    exact hf
  have hslope : q.grad (along r.x r.u step.step).get ⬝ᵥ r.u.get = 0 := by
    by_cases hd : r.u.get = 0
    · rw [hd, dotProduct_zero]
    · have hvertex := hp.slope_vertex (half_pos (q.pos _ hd))
      rw [← ht, slope_through_quadratic] at hvertex
      exact Except.ok.inj hvertex
  refine .inl ⟨step, hfound, (Except.ok.inj hv).symm, ?_⟩
  intro t
  have hle := Quadratic.value_le_of_slope hslope (t - step.step)
  have hget : (along r.x r.u step.step).get + (t - step.step) • r.u.get =
      (along r.x r.u t).get := by
    rw [get_along, get_along, add_assoc, ← add_smul, add_sub_cancel]
  rwa [hget] at hle

/-- A value that does not change at all hardly changes. -/
theorem steady_of_eq (h : step.value = r.fx) : (r.moved s step).Steady s := by
  have hf := s.settings.ftol_nonneg
  have ht := s.settings.tiny_nonneg
  rw [decimal_zero] at hf ht
  change 2.0 * abs (step.value - r.fx) ≤
    s.settings.ftol * (abs step.value + abs r.fx + s.settings.tiny)
  rw [h, sub_self, abs_eq, abs_zero, mul_zero]
  apply mul_nonneg hf
  have ha : 0 ≤ abs r.fx := abs_nonneg r.fx
  linarith

/-- Without tolerance, a value that hardly changes does not change at all. -/
theorem eq_of_steady (hf : s.settings.ftol = 0) (h : (r.moved s step).Steady s) :
    step.value = r.fx := by
  have h : 2.0 * abs (step.value - r.fx) ≤
    s.settings.ftol * (abs step.value + abs r.fx + s.settings.tiny) := h
  rw [hf, zero_mul, decimal_two, abs_eq] at h
  have hz : |step.value - r.fx| = 0 := by
    have ha := abs_nonneg (step.value - r.fx)
    linarith
  exact sub_eq_zero.mp (abs_eq_zero.mp hz)

/-- The squared norm that is tested is that of the gradient. -/
theorem squaredNorm_eq (hg : s.gradient = q.gradient) (hr : r.Steers s) :
    r.squaredNorm = q.grad r.x.get ⬝ᵥ q.grad r.x.get := by
  rw [squaredNorm_of_neg (hr.eq_neg (Setup.vectorGradient_quadratic hg r.x)), get_ofFn]

/-- A gradient that passes the last test is not zero. -/
theorem grad_ne_zero_of_passes (hg : s.gradient = q.gradient) (hgtol : 0 < s.settings.gtol)
    (h : r.Passes s v r') : q.grad r'.x.get ≠ 0 := by
  intro h0
  obtain ⟨step, u, nfev, -, -, hu, rfl⟩ := eq_of_differentiates h.differentiates
  obtain rfl := Setup.eq_of_vectorGradient hg hu
  obtain ⟨test, ht, hn⟩ := h.test
  rw [slopeTest_eq, scaledGradient_zero (by rw [← h0]; exact get_ofFn _), zero_div] at ht
  rw [← Except.ok.inj ht] at hn
  exact hn hgtol

/-- Between orthogonal gradients all methods have the same weight. -/
theorem weight_of_orthogonal (h : r.g.get ⬝ᵥ r.u.get = 0) (m : Method) :
    r.weight m = r.u.get ⬝ᵥ r.u.get := by
  cases m with
  | fletcherReeves => exact dot_eq
  | polakRibiere =>
    rw [weight, larger_eq, dot_eq, get_add, add_dotProduct, h, add_zero, decimal_zero,
      max_eq_left dot_self_nonneg]

/-- One iteration with an exact search. -/
structure Advances (q : Quadratic K n) (m : Method) (r r' : Run K n) : Prop where
  step : ∃ t : K, q.grad r'.x.get = q.grad r.x.get + t • q.matrix *ᵥ r.u.get
  slope : q.grad r'.x.get ⬝ᵥ r.u.get = 0
  before : q.grad r.x.get ≠ 0
  after : q.grad r'.x.get ≠ 0
  turn : r'.u.get = m.direction (q.grad r.x.get) (q.grad r'.x.get) r.u.get
  value : r'.fmin = q.value r'.x.get
  last : r'.fx = r'.fmin

theorem advances_of_completes (hg : s.gradient = q.gradient) (hgtol : 0 < s.settings.gtol)
    (hl : r.Lands q s step) (hr : r.Steers s) (h : r.Completes s v r') :
    r.Advances q s.settings.method r' := by
  obtain ⟨-, hne, c', hc', hturn⟩ :=
    direction_of_completes hr (Setup.vectorGradient_quadratic hg r.x) h
  obtain rfl := Setup.eq_of_vectorGradient hg hc'
  obtain ⟨step', hs, ha⟩ := alike_of_completes h
  obtain rfl : step = step' := Except.ok.inj (hl.found.symm.trans hs.found)
  have hx : r'.x = along r.x r.u step.step := ha.x
  rw [get_ofFn, get_ofFn] at hturn
  rw [get_ofFn] at hne
  refine ⟨⟨step.step, ?_⟩, ?_, ?_, ?_, hturn, ?_, last_of_completes h⟩
  · rw [hx, get_along, Quadratic.grad_along]
  · rw [hx]
    exact hl.slope
  · rintro h0
    rw [h0, dotProduct_zero] at hne
    exact hne rfl
  · cases h with
    | intro hp hw =>
      have hpass := grad_ne_zero_of_passes hg hgtol hp
      rwa [← (turned_alike _ _).x] at hpass
  · rw [hx, ← hl.value]
    exact ha.fmin

end Run

end Descent
