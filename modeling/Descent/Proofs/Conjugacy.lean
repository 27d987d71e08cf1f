import Mathlib
import Descent.Proofs.Quadratic

/-! Conjugate directions: along them, steps to where the slope vanishes keep all gradients
orthogonal, so there are no more of them than dimensions. -/
namespace Descent
open Matrix
variable {K : Type} [Field K] [LinearOrder K] {n : ℕ} {q : Quadratic K n}
  {g d : ℕ → Fin n → K} {k : ℕ}

/-- The gradients and directions up to number `k` are those of exact steps. -/
structure Quadratic.Conjugates (q : Quadratic K n) (g d : ℕ → Fin n → K) (k : ℕ) : Prop where
  nonzero : ∀ i < k, g i ≠ 0
  step : ∀ i < k, ∃ t : K, g (i + 1) = g i + t • q.matrix *ᵥ d i
  turn : ∀ i ≤ k, ∃ w : K, g i = w • d (i - 1) - d i
  descends : g k ⬝ᵥ d k = -(g k ⬝ᵥ g k)
  gradients : ∀ i j, i < j → j ≤ k → g i ⬝ᵥ g j = 0
  mixed : ∀ i j, i < j → j ≤ k → d i ⬝ᵥ g j = 0
  directions : ∀ i j, i < j → j ≤ k → d i ⬝ᵥ q.matrix *ᵥ d j = 0

namespace Quadratic.Conjugates

theorem zero (h : d 0 = -g 0) : q.Conjugates g d 0 where
  nonzero := by
    intro i hi
    omega
  step := by
    intro i hi
    omega
  turn := by
    intro i hi
    obtain rfl : i = 0 := by omega
    exact ⟨0, by simp [h]⟩
  descends := by rw [h, dotProduct_neg]
  gradients := by
    intro i j hij hj
    omega
  mixed := by
    intro i j hij hj
    omega
  directions := by
    intro i j hij hj
    omega

/-- What holds of all pairs up to `k` and of all pairs with `k + 1` holds of all up to `k + 1`. -/
theorem pairs_succ {P : ℕ → ℕ → Prop} (hp : ∀ i j, i < j → j ≤ k → P i j)
    (hs : ∀ i ≤ k, P i (k + 1)) : ∀ i j, i < j → j ≤ k + 1 → P i j := by
  intro i j hij hj
  rcases Nat.lt_or_eq_of_le hj with hlt | rfl
  · exact hp i j hij (by omega)
  · exact hs i (by omega)

variable (h : q.Conjugates g d k) {c : Fin n → K} {t : K} (hc : c = g k + t • q.matrix *ᵥ d k)
  (he : c ⬝ᵥ d k = 0)
include h hc he

/-- After an exact step the gradient is orthogonal to all directions so far. -/
theorem direction_orthogonal {i : ℕ} (hi : i ≤ k) : d i ⬝ᵥ c = 0 := by
  rcases Nat.lt_or_eq_of_le hi with hlt | rfl
  · rw [hc, dotProduct_add, dotProduct_smul, h.mixed i k hlt le_rfl, h.directions i k hlt le_rfl,
      smul_zero, add_zero]
  · rw [dotProduct_comm, he]

/-- It is orthogonal to all gradients so far, each of which is made of two directions. -/
theorem gradient_orthogonal {i : ℕ} (hi : i ≤ k) : g i ⬝ᵥ c = 0 := by
  obtain ⟨w, hw⟩ := h.turn i hi
  rw [hw, sub_dotProduct, smul_dotProduct, direction_orthogonal h hc he (by omega : i - 1 ≤ k),
    direction_orthogonal h hc he hi, smul_zero, sub_zero]

omit hc he

variable [IsStrictOrderedRing K] (hk : g k ≠ 0) (hstep : g (k + 1) = g k + t • q.matrix *ᵥ d k)
  (hexact : g (k + 1) ⬝ᵥ d k = 0)
  (hd : d (k + 1) = (g (k + 1) ⬝ᵥ g (k + 1) / (g k ⬝ᵥ g k)) • d k - g (k + 1))
include hk hstep hexact hd

/-- The product of the next direction with the difference of two gradients vanishes. -/
theorem difference_orthogonal {i : ℕ} (hi : i ≤ k) : (g (i + 1) - g i) ⬝ᵥ d (k + 1) = 0 := by
  have hgrad : g i ⬝ᵥ g (k + 1) = 0 := gradient_orthogonal h hstep hexact hi
  rw [hd, dotProduct_sub, dotProduct_smul, sub_dotProduct _ _ (g (k + 1)), hgrad, sub_zero]
  rcases Nat.lt_or_eq_of_le hi with hlt | rfl
  · obtain ⟨s, hs⟩ := h.step i hlt
    have hdir : (g (i + 1) - g i) ⬝ᵥ d k = 0 := by
      rw [hs, add_sub_cancel_left, smul_dotProduct, dotProduct_comm, dot_mulVec_comm,
        h.directions i k hlt le_rfl, smul_zero]
    rw [hdir, gradient_orthogonal h hstep hexact (by omega : i + 1 ≤ k), smul_zero, sub_zero]
  · rw [sub_dotProduct, hexact, h.descends, sub_neg_eq_add, zero_add, smul_eq_mul,
      div_mul_cancel₀ _ (dot_self_pos hk).ne', sub_self]

/-- The next direction is conjugate to all so far. -/
theorem direction_conjugate {i : ℕ} (hi : i ≤ k) : d i ⬝ᵥ q.matrix *ᵥ d (k + 1) = 0 := by
  have hs : ∃ s : K, s ≠ 0 ∧ g (i + 1) - g i = s • q.matrix *ᵥ d i := by
    have hzero : g i ⬝ᵥ g (i + 1) = 0 := by
      rcases Nat.lt_or_eq_of_le hi with hlt | rfl
      · exact h.gradients i (i + 1) (Nat.lt_succ_self i) hlt
      · exact gradient_orthogonal h hstep hexact hi
    have hne : g i ≠ 0 := by
      rcases Nat.lt_or_eq_of_le hi with hlt | rfl
      · exact h.nonzero i hlt
      · exact hk
    obtain ⟨s, hs⟩ : ∃ s : K, g (i + 1) = g i + s • q.matrix *ᵥ d i := by
      rcases Nat.lt_or_eq_of_le hi with hlt | rfl
      · exact h.step i hlt
      · exact ⟨t, hstep⟩
    refine ⟨s, ?_, by rw [hs, add_sub_cancel_left]⟩
    rintro rfl
    rw [hs, zero_smul, add_zero] at hzero
    exact (dot_self_pos hne).ne' hzero
  obtain ⟨s, hne, hs⟩ := hs
  have hdiff := difference_orthogonal h hk hstep hexact hd hi
  rw [hs, smul_dotProduct, smul_eq_mul, dotProduct_comm, dot_mulVec_comm] at hdiff
  exact (mul_eq_zero.mp hdiff).resolve_left hne

/-- One more exact step, and one more direction. -/
theorem succ : q.Conjugates g d (k + 1) where
  nonzero := Nat.forall_lt_succ_right.mpr ⟨h.nonzero, hk⟩
  step := Nat.forall_lt_succ_right.mpr ⟨h.step, t, hstep⟩
  turn := by
    intro i hi
    rcases Nat.lt_or_eq_of_le hi with hlt | rfl
    · exact h.turn i (by omega)
    · exact ⟨_, by rw [Nat.add_sub_cancel, hd, sub_sub_cancel]⟩
  descends := by
    rw [hd, dotProduct_sub, dotProduct_smul, hexact, smul_zero, zero_sub]
  gradients := pairs_succ h.gradients fun _ hi => gradient_orthogonal h hstep hexact hi
  mixed := pairs_succ h.mixed fun _ hi => direction_orthogonal h hstep hexact hi
  directions := pairs_succ h.directions fun _ hi => direction_conjugate h hk hstep hexact hd hi

omit hstep hexact hd in
/-- There are no more gradients than dimensions. -/
theorem lt_dim : k < n := by
  have hne : ∀ i : Fin (k + 1), g i ≠ 0 := by
    intro i
    rcases Nat.lt_or_eq_of_le (Nat.le_of_lt_succ i.isLt) with hlt | heq
    · exact h.nonzero i hlt
    · rwa [heq]
  have hortho : (dotProductBilin K K : (Fin n → K) →ₗ[K] (Fin n → K) →ₗ[K] K).IsOrthoᵢ
      fun i : Fin (k + 1) => g i := by
    intro i j hij
    rcases lt_or_gt_of_ne hij with hlt | hgt
    · exact h.gradients i j hlt (by omega)
    · change g i ⬝ᵥ g j = 0
      rw [dotProduct_comm]
      exact h.gradients j i hgt (by omega)
  have hli := LinearMap.linearIndependent_of_isOrthoᵢ hortho fun i => (dot_self_pos (hne i)).ne'
  have hcard := hli.fintype_card_le_finrank
  rw [Fintype.card_fin, Module.finrank_fin_fun] at hcard
  exact hcard

end Quadratic.Conjugates
end Descent
