import Mathlib
import Descent.Proofs.Search.Brent
import Descent.Proofs.Search.Decrease
import Descent.Proofs.Search.Expansion

/-! In exact arithmetic no search divides by zero. What is left to fail is the line itself, a line
that does not descend, and a bracket that is not found. -/
namespace Descent
variable {K : Type} [Field K] [LinearOrder K] [IsStrictOrderedRing K] [SquareRoot K]
  {P : Fault K → Prop} {l : Line K}

theorem quotient_ne_error {a b : K} {e : Fault K} (h : b ≠ 0) : quotient a b ≠ .error e := by
  rw [quotient_of_ne h]
  rintro ⟨⟩

/-- Where an interval is divided its parabola opens upward; the slope at the start is negative; and
the secant is taken between two different slopes. -/
theorem Wolfe.dividesOnly_exact (P : Fault K → Prop) : DividesOnly P where
  interpolate {lo hi e} h := by
    obtain ⟨t, ht, -⟩ := interpolate_inner lo hi
    rw [h] at ht
    cases ht
  firstStep {value slope previous e} hs h := by
    rw [decimal_zero, not_le] at hs
    rw [Descent.firstStep, quotient_of_ne hs.ne] at h
    cases h
  secant {a slope d e} hd h := (quotient_ne_error (sub_ne_zero.mpr (not_le.mp hd).ne) h).elim

namespace Bracket
variable {s : Bracket K} {o : Options K} {a b : K}

theorem tinyCurvature_pos : 0 < (tinyCurvature : K) := by
  unfold tinyCurvature
  norm_num

/-- The curvature of the parabola is kept away from zero. -/
theorem vertex_eq_ok (s : Bracket K) : ∃ u, s.vertex = .ok u := by
  unfold vertex
  extract_lets r q denom
  have hm : 0 < max |q - r| (tinyCurvature : K) := lt_max_of_lt_right tinyCurvature_pos
  have hc : copySign (larger (abs (q - r)) tinyCurvature) (q - r) ≠ 0 := by
    rw [larger_eq, abs_eq]
    change (if q - r < 0 then -|max |q - r| tinyCurvature| else |max |q - r| tinyCurvature|) ≠ 0
    rw [abs_of_pos hm]
    split
    · exact neg_ne_zero.mpr hm.ne'
    · exact hm.ne'
  have hd : denom ≠ 0 := by
    apply mul_ne_zero _ hc
    rw [decimal_two]
    exact two_ne_zero
  rw [quotient_of_ne hd]
  exact ⟨_, rfl⟩

variable (hl : ∀ t, (l.valueAt t).FailsOnly P)
include hl

theorem failsOnly_expand (growLimit : K) (s : Bracket K) : (expand l growLimit s).FailsOnly P := by
  obtain ⟨u, hu⟩ := vertex_eq_ok s
  exact failsOnly_expand_of_vertex hl (by simp [hu]) growLimit

variable (hb : P (.noBracket o.maxIter))
include hb

theorem failsOnly_run (budget : ℕ) (s : Bracket K) (nfev : ℕ) :
    (run l o budget s nfev).FailsOnly P := by
  induction budget generalizing s nfev with
  | zero => exact Traced.failsOnly_fail hb
  | succ budget ih =>
    rw [run]
    split
    · exact Traced.failsOnly_pure _
    · apply Traced.failsOnly_bind (failsOnly_expand hl o.growLimit s)
      rintro ⟨w, k⟩ _
      cases w with
      | found s' => exact Traced.failsOnly_pure _
      | next s' => exact ih s' (nfev + k)

theorem failsOnly_search : (search l a b o).FailsOnly P := by
  unfold search
  apply Traced.failsOnly_bind (failsOnly_initial hl a b)
  intro s _
  exact failsOnly_run hl hb _ s 3

end Bracket

namespace Brent
variable {tol : K} {o : Options K}

/-- A divisor of zero does not come to be divided by: no step is less than half of zero. -/
theorem propose_eq_ok (tol : K) (s : State K) : ∃ s', s.propose tol = .ok s' := by
  unfold State.propose
  extract_lets tol1 r q p q' p' q''
  split
  · split
    · exact ⟨_, rfl⟩
    · rename_i hn
      have hq : q'' ≠ 0 := by
        intro h0
        apply hn
        rw [h0]
        simp
      rw [quotient_of_ne hq]
      exact ⟨_, rfl⟩
  · exact ⟨_, rfl⟩

variable (hl : ∀ t, (l.valueAt t).FailsOnly P)
include hl

theorem failsOnly_step (s : State K) : (step l tol s).FailsOnly P := by
  obtain ⟨s', hs⟩ := propose_eq_ok tol s
  apply Traced.failsOnly_lift_bind (by simp [hs])
  intro t _
  exact Traced.failsOnly_bind (hl _) fun v _ => Traced.failsOnly_pure _

theorem failsOnly_run (budget : ℕ) (s : State K) (nfev : ℕ) :
    (run l o budget s nfev).FailsOnly P := by
  induction budget generalizing s nfev with
  | zero =>
    constructor
    intro e h
    cases h
  | succ budget ih =>
    rw [run]
    split
    · exact Traced.failsOnly_pure _
    · exact Traced.failsOnly_bind (failsOnly_step hl s) fun s' _ => ih s' (nfev + 1)

theorem failsOnly_bracketAndSearch (hb : P (.noBracket 200)) :
    (bracketAndSearch l o).FailsOnly P := by
  apply Traced.failsOnly_bind (Bracket.failsOnly_search (o := .standard) hl hb)
  rintro ⟨s, nfev⟩ _
  exact Traced.failsOnly_bind (failsOnly_run hl _ _ _) fun found _ => Traced.failsOnly_pure _

end Brent
end Descent
