import Mathlib
import Descent.Proofs.Search.Decrease

/-! In exact arithmetic an accepted step of the Wolfe search on a parabola ends at its vertex. -/
namespace Descent
variable {K : Type} [Field K] [LinearOrder K] [IsStrictOrderedRing K] {l : Line K}

/-- The line is the parabola `v + b t + a t²`. -/
structure Line.IsParabola (l : Line K) (v b a : K) : Prop where
  value : ∀ t, l.value t = .ok (v + b * t + a * t ^ 2)
  slope : ∀ t, l.slope t = .ok (b + 2 * a * t)

namespace Line.IsParabola
variable {v b a : K} (h : l.IsParabola v b a)
include h

/-- Where the slope vanishes is the vertex. -/
theorem value_vertex (ha : 0 < a) : l.value (-b / (2 * a)) = .ok (v - b ^ 2 / (4 * a)) := by
  rw [h.value]
  congr 1
  field_simp
  ring

theorem slope_vertex (ha : 0 < a) : l.slope (-b / (2 * a)) = .ok 0 := by
  rw [h.slope]
  congr 1
  field_simp
  ring

end Line.IsParabola

namespace Wolfe
variable [SquareRoot K] {c : Conditions K} {v b a d : K} {o : Options K} {found : Found K}
  {es : List (Probe K)}

/-- With a first constant of at most a half the vertex has sufficient decrease. -/
theorem not_tooHigh_vertex (ha : 0 < a) (h1 : c.c1 ≤ 1 / 2) :
    ¬ c.TooHigh ⟨-c.slope / (2 * a), c.value - c.slope ^ 2 / (4 * a)⟩ := by
  have hp : 0 ≤ c.slope ^ 2 / (2 * a) := by positivity
  have heq : c.c1 * (-c.slope / (2 * a)) * c.slope = -(c.c1 * (c.slope ^ 2 / (2 * a))) := by ring
  have hhalf : c.slope ^ 2 / (4 * a) = 1 / 2 * (c.slope ^ 2 / (2 * a)) := by
    field_simp
    ring
  have hmul := mul_le_mul_of_nonneg_right h1 hp
  unfold Conditions.TooHigh
  rw [heq, hhalf]
  simp only [gt_iff_lt, not_lt]
  linarith

/-- The secant step from a step with a slope less steep than at the start goes to the vertex. -/
theorem refine_parabola {s : Step K} (h : l.IsParabola c.value c.slope a) (ha : 0 < a)
    (hb : c.slope < 0) (h1 : c.c1 ≤ 1 / 2) (hv : s.toSample.LiesOn l)
    (hd : l.slope s.step = .ok d) (hlt : c.slope < d) :
    ∃ r, (refine l c s d).outcome = .ok r ∧ r.step = -c.slope / (2 * a) ∧
      r.value = c.value - c.slope ^ 2 / (4 * a) := by
  have hd' : d = c.slope + 2 * a * s.step := by
    rw [h.slope] at hd
    exact (Except.ok.inj hd).symm
  unfold refine
  by_cases hzero : d = 0
  · have hs : s.step = -c.slope / (2 * a) := by
      rw [eq_div_iff (by positivity)]
      linarith
    refine ⟨s, ?_, hs, ?_⟩
    · rw [if_pos (by simp [hzero])]
      rfl
    · have hvertex := h.value_vertex ha
      rw [← hs, hv] at hvertex
      exact Except.ok.inj hvertex
  · have hne : c.slope - d ≠ 0 := by linarith
    have ht : quotient (s.step * c.slope) (c.slope - d) = .ok (-c.slope / (2 * a)) := by
      rw [quotient_of_ne hne]
      congr 1
      rw [div_eq_div_iff hne (by positivity), hd']
      ring
    have hpos : 0 < -c.slope / (2 * a) := div_pos (by linarith) (by positivity)
    have hmoves : -c.slope / (2 * a) ≠ s.step := by
      intro heq
      apply hzero
      rw [hd', ← heq]
      field_simp
      ring
    refine ⟨⟨⟨-c.slope / (2 * a), c.value - c.slope ^ 2 / (4 * a)⟩, s.nfev + 1, s.njev + 1⟩, ?_,
      rfl, rfl⟩
    rw [if_neg (by simp [hzero, hlt]), Traced.outcome_bind ht,
      if_neg (by simp [hmoves, hpos]), Traced.outcome_bind (h.value_vertex ha)]
    dsimp only
    rw [if_neg (not_tooHigh_vertex ha h1), Traced.outcome_bind (h.slope_vertex ha)]
    simp

/-- A search that comes to an end started from the given value and slope, which descends. -/
theorem conditions_of_find (h : l.IsParabola v b a) (hf : find l o = ⟨.ok (c, found), es⟩) :
    c.value = v ∧ c.slope = b ∧ b < 0 := by
  obtain ⟨trial, es', hs, -, -⟩ := starts_of_find hf
  have hval := hs.value
  rw [h.value] at hval
  have hslope := hs.slope
  rw [h.slope] at hslope
  have hb : c.slope = b := by simpa using (Except.ok.inj hslope).symm
  have hd := hs.slope_neg
  rw [hb] at hd
  exact ⟨by simpa using (Except.ok.inj hval).symm, hb, hd⟩

/-- A search on a parabola that ends with an accepted step returns the vertex. -/
theorem search_parabola (h : l.IsParabola v b a) (ha : 0 < a) (h1 : o.c1 ≤ 1 / 2)
    (hf : find l o = ⟨.ok (c, found), es⟩) (he : found.ending = .accepted d) :
    ∃ r, (search l o).outcome = .ok r ∧ r.step = -b / (2 * a) ∧
      r.value = v - b ^ 2 / (4 * a) := by
  obtain ⟨trial, es', hs, -, -⟩ := starts_of_find hf
  obtain ⟨rfl, rfl, hneg⟩ := conditions_of_find h hf
  obtain ⟨hlies, hacc⟩ := sound_find hf
  obtain ⟨hd, hflat⟩ := hacc d he
  have hlt : c.slope < d := by
    obtain ⟨-, -, hc2⟩ := hs.constants
    have hle : |d| ≤ -c.c2 * c.slope := hflat
    have hm := mul_pos_of_neg_of_neg (sub_neg.mpr hc2) hneg
    have hn := neg_abs_le d
    linarith
  obtain ⟨r, hr, hstep, hvalue⟩ := refine_parabola (s := found.toStep) h ha hneg
    (by rw [hs.c1]; exact h1) hlies hd hlt
  refine ⟨r, ?_, hstep, hvalue⟩
  rw [search, hf, Traced.outcome_bind rfl]
  dsimp only
  rw [he]
  exact hr

end Wolfe
end Descent
