import Mathlib
import Descent.Proofs.Exact
import Descent.Proofs.Run.Iteration

/-! The test of the scaled gradient in exact arithmetic. -/
namespace Descent.Run
variable {K : Type} [Field K] [LinearOrder K] [IsStrictOrderedRing K] [SquareRoot K] {n : ℕ}
  {s : Setup K n} {r : Run K n}

theorem scaledGradient_zero {x u : Vector K n} (hu : u.get = 0) : scaledGradient x u = 0 := by
  have hz : Vector.zipWith (fun a b => abs (peak (abs a) 1.0 * b)) x u = .replicate n 0 := by
    ext i hi
    have hi0 : u[i] = 0 := congrFun hu ⟨i, hi⟩
    simp [hi0]
  have hf : ∀ m : ℕ, (List.replicate m (0 : K)).foldl peak 0 = 0 := by
    intro m
    induction m with
    | zero => rfl
    | succ m ih =>
      rw [List.replicate_succ, List.foldl_cons, peak_eq, max_self]
      exact ih
  rw [scaledGradient, hz, decimal_zero, ← Vector.foldl_toList, Vector.toList_replicate]
  exact hf n

theorem scaledGradient_nonneg (x u : Vector K n) : 0 ≤ scaledGradient x u := by
  have hfold : ∀ (l : List K) (a : K), a ≤ l.foldl peak a := by
    intro l
    induction l with
    | nil => exact le_refl
    | cons b l ih =>
      intro a
      rw [List.foldl_cons, peak_eq]
      exact (le_max_left a b).trans (ih _)
  rw [scaledGradient, decimal_zero, ← Vector.foldl_toList]
  exact hfold _ 0

/-- The scaled gradient can always be compared. -/
theorem slopeTest_eq (r : Run K n) :
    r.slopeTest = .ok (scaledGradient r.x r.u / max r.fx 1) := by
  rw [slopeTest, larger_eq, decimal_one, quotient_of_ne (lt_max_of_lt_right one_pos).ne']

/-- The scaled gradient is never below a tolerance of zero. -/
theorem not_slopeTest_lt (h : s.settings.gtol = 0) {test : K} (ht : r.slopeTest = .ok test) :
    ¬ test < s.settings.gtol := by
  rw [slopeTest_eq] at ht
  cases ht
  rw [h, not_lt]
  exact div_nonneg (scaledGradient_nonneg _ _) (zero_le_one.trans (le_max_right _ _))

end Descent.Run
