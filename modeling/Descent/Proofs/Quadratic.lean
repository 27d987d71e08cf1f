import Mathlib
import Descent.ConjugateGradient.Optimizer
import Descent.Proofs.Exact

/-! Quadratic objectives with a positive definite matrix: their gradients, their values along a
line, and optimizers for them. -/
namespace Descent
open Matrix

/-- A vector as it may be handed in. -/
def Candidate.ofVector {K : Type} {n : ℕ} (x : Vector K n) : Candidate K :=
  ⟨.ofVector x, .array .float64 true⟩

theorem Candidate.toPoint_ofVector {K : Type} {n : ℕ} (x : Vector K n) :
    (ofVector x).toPoint n = .ok x := by
  simp [toPoint, ofVector, Tensor.toVector?_ofVector]

/-- The data of `x'Ax/2 - b'x + c`, with `A` symmetric and positive definite. -/
structure Quadratic (K : Type) [Field K] [LinearOrder K] (n : ℕ) where
  matrix : Matrix (Fin n) (Fin n) K
  offset : Fin n → K
  constant : K
  symm : matrix.IsSymm
  pos : ∀ v, v ≠ 0 → 0 < v ⬝ᵥ matrix *ᵥ v

namespace Quadratic
variable {K : Type} [Field K] [LinearOrder K] {n : ℕ} (q : Quadratic K n)

def value (x : Fin n → K) : K := x ⬝ᵥ q.matrix *ᵥ x / 2 - q.offset ⬝ᵥ x + q.constant

def grad (x : Fin n → K) : Fin n → K := q.matrix *ᵥ x - q.offset

def objective : Objective K n := fun x => .ok (q.value x.get)

def gradient : Gradient K n := fun x => .ok (.ofVector (.ofFn (q.grad x.get)))

variable {q}

theorem dot_mulVec_comm (u v : Fin n → K) : u ⬝ᵥ q.matrix *ᵥ v = v ⬝ᵥ q.matrix *ᵥ u := by
  rw [dotProduct_mulVec, ← mulVec_transpose, q.symm.eq, dotProduct_comm]

/-- A matrix without kernel has an inverse. -/
theorem grad_eq_zero {x : Fin n → K} (h : q.grad x = 0) : x = q.matrix⁻¹ *ᵥ q.offset := by
  have hinj : Function.Injective q.matrix.mulVec := by
    intro u v huv
    by_contra hne
    have hpos := q.pos (u - v) (sub_ne_zero.mpr hne)
    rw [mulVec_sub, sub_eq_zero.mpr huv, dotProduct_zero] at hpos
    exact lt_irrefl 0 hpos
  have hunit : IsUnit q.matrix := mulVec_injective_iff_isUnit.mp hinj
  have hdet : IsUnit q.matrix.det := (isUnit_iff_isUnit_det _).mp hunit
  rw [← sub_eq_zero.mp h, mulVec_mulVec, nonsing_inv_mul _ hdet, one_mulVec]

theorem grad_along (x d : Fin n → K) (t : K) :
    q.grad (x + t • d) = q.grad x + t • q.matrix *ᵥ d := by
  rw [grad, grad, mulVec_add, mulVec_smul]
  abel

variable [IsStrictOrderedRing K]

/-- Along a line a quadratic is a parabola. -/
theorem value_along (x d : Fin n → K) (t : K) :
    q.value (x + t • d) =
      q.value x + t * (q.grad x ⬝ᵥ d) + t ^ 2 / 2 * (d ⬝ᵥ q.matrix *ᵥ d) := by
  have hsymm := dot_mulVec_comm (q := q) x d
  have hcomm := dotProduct_comm (q.matrix *ᵥ x) d
  simp only [value, grad, mulVec_add, mulVec_smul, dotProduct_add, add_dotProduct, smul_dotProduct,
    dotProduct_smul, sub_dotProduct, smul_eq_mul, hsymm, hcomm]
  ring

/-- Where a line is nowhere lower than at a point, it has no slope there. -/
theorem slope_eq_zero {x d : Fin n → K} (h : ∀ t : K, q.value x ≤ q.value (x + t • d)) :
    q.grad x ⬝ᵥ d = 0 := by
  by_cases hd : d = 0
  · rw [hd, dotProduct_zero]
  have ha := q.pos d hd
  have hm := h (-(q.grad x ⬝ᵥ d) / (d ⬝ᵥ q.matrix *ᵥ d))
  rw [value_along] at hm
  generalize d ⬝ᵥ q.matrix *ᵥ d = a at ha hm
  generalize q.grad x ⬝ᵥ d = b at hm ⊢
  have hb : -b / a * b + (-b / a) ^ 2 / 2 * a = -(b ^ 2 / (2 * a)) := by
    field_simp
    ring
  have hle : b ^ 2 / (2 * a) ≤ 0 := by linarith
  rw [div_nonpos_iff] at hle
  have hsq : b ^ 2 ≤ 0 := by
    rcases hle with ⟨-, ha'⟩ | ⟨hb', -⟩
    · linarith
    · exact hb'
  exact pow_eq_zero_iff (two_ne_zero) |>.mp (le_antisymm hsq (sq_nonneg b))

/-- A point of a line without slope is nowhere undercut. -/
theorem value_le_of_slope {x d : Fin n → K} (h : q.grad x ⬝ᵥ d = 0) (t : K) :
    q.value x ≤ q.value (x + t • d) := by
  rw [value_along, h, mul_zero, add_zero]
  by_cases hd : d = 0
  · simp [hd]
  have ha := q.pos d hd
  have hp : 0 ≤ t ^ 2 / 2 * (d ⬝ᵥ q.matrix *ᵥ d) := by positivity
  linarith

/-- A step from such a point to one that is no higher leads nowhere. -/
theorem step_eq_zero {x d : Fin n → K} {t : K} (h : q.grad x ⬝ᵥ d = 0)
    (hv : q.value (x + t • d) = q.value x) : t • d = 0 := by
  by_cases hd : d = 0
  · rw [hd, smul_zero]
  have ha := q.pos d hd
  rw [value_along, h, mul_zero, add_zero, add_eq_left] at hv
  have ht : t ^ 2 / 2 = 0 := (mul_eq_zero.mp hv).resolve_right ha.ne'
  have hzero : t = 0 := by
    apply (pow_eq_zero_iff two_ne_zero).mp
    linarith
  rw [hzero, zero_smul]

/-- If a step to where the slope vanishes does not lower the value, although the direction is the
negative gradient up to what is orthogonal to it, then it stays at the minimizer. -/
theorem minimizer_of_value_eq {x d : Fin n → K} {t : K} (h : q.grad (x + t • d) ⬝ᵥ d = 0)
    (hv : q.value (x + t • d) = q.value x) (hd : q.grad x ⬝ᵥ d = -(q.grad x ⬝ᵥ q.grad x)) :
    x + t • d = q.matrix⁻¹ *ᵥ q.offset := by
  have hback : x + t • d + -t • d = x := by rw [add_assoc, ← add_smul, add_neg_cancel, zero_smul,
    add_zero]
  have hstep := step_eq_zero (t := -t) h (by rw [hback, hv])
  have hstay : x + t • d = x := by
    rw [neg_smul, neg_eq_zero] at hstep
    rw [hstep, add_zero]
  rw [hstay] at h ⊢
  rw [h, zero_eq_neg] at hd
  exact grad_eq_zero (dotProduct_self_eq_zero.mp hd)

end Quadratic

variable {K : Type} [Field K] [LinearOrder K] [SquareRoot K] {n : ℕ}

theorem Setup.vectorGradient_quadratic {s : Setup K n} {q : Quadratic K n}
    (hg : s.gradient = q.gradient) (x : Vector K n) :
    s.vectorGradient x = .ok (.ofFn (q.grad x.get)) := by
  simp only [vectorGradient, hg, Quadratic.gradient, bind, Except.bind,
    Tensor.toVector?_ofVector]

theorem Setup.eq_of_vectorGradient {s : Setup K n} {q : Quadratic K n} {x c : Vector K n}
    (hg : s.gradient = q.gradient) (h : s.vectorGradient x = .ok c) :
    c = .ofFn (q.grad x.get) := by
  rw [vectorGradient_quadratic hg] at h
  exact (Except.ok.inj h).symm

variable [IsStrictOrderedRing K]

/-- The standard settings, with a record and without tolerance for values that hardly change. -/
def Settings.exact : Settings K where
  maxIter := 200
  ftol := 0.0
  gtol := 1e-8
  tiny := 1e-18
  method := .polakRibiere
  lineSearch := "wolfe"
  checkGradient := some false
  checkTol := 1e-12
  checkStep := 1e-3
  history := true
  maxIter_pos := by decide
  ftol_nonneg := le_rfl
  gtol_nonneg := by norm_num
  tiny_nonneg := by norm_num
  checkTol_nonneg := by norm_num
  checkStep_pos := by norm_num

/-- An optimizer for a quadratic that has not been used yet. -/
def Optimizer.ofQuadratic (q : Quadratic K n) (st : Strategy K) : Optimizer K n :=
  ⟨⟨q.objective, q.gradient, .exact⟩, .initial st⟩

instance : SquareRoot ℚ := ⟨Rat.sqrt⟩

/-- The parabolic bowl `x²/2 + y²`. -/
def Quadratic.bowl : Quadratic ℚ 2 where
  matrix := !![1, 0; 0, 2]
  offset := 0
  constant := 0
  symm := by
    ext i j
    fin_cases i <;> fin_cases j <;> rfl
  pos := by
    intro v hv
    have hval : v ⬝ᵥ !![1, 0; 0, 2] *ᵥ v = v 0 ^ 2 + 2 * v 1 ^ 2 := by
      simp [Fin.sum_univ_two, dotProduct]
      ring
    rw [hval]
    by_contra hle
    apply hv
    ext i
    fin_cases i <;> simp <;> nlinarith [sq_nonneg (v 0), sq_nonneg (v 1)]

end Descent
