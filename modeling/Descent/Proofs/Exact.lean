import Mathlib
import Descent.LineSearch

/-! Exact arithmetic: an ordered field, with any operation in the place of the square root. -/
namespace Descent

/-- A square root, without laws. -/
class SquareRoot (K : Type) where
  root : K → K

instance (priority := low) Scalar.exact {K : Type} [Field K] [LinearOrder K] [SquareRoot K] :
    Scalar K where
  abs x := |x|
  sqrt := SquareRoot.root
  copySign m s := if s < 0 then -|m| else |m|
  isFinite _ := true
  beq x y := decide (x = y)
  decLt := inferInstance
  decLe := inferInstance

variable {K : Type} {n : ℕ}

section
variable [Field K] [LinearOrder K] [IsStrictOrderedRing K] {v : Fin n → K}

theorem dot_self_nonneg : 0 ≤ v ⬝ᵥ v := by
  apply Finset.sum_nonneg
  intro i _
  exact mul_self_nonneg (v i)

theorem dot_self_pos (h : v ≠ 0) : 0 < v ⬝ᵥ v := by
  apply lt_of_le_of_ne dot_self_nonneg
  intro h0
  exact h (dotProduct_self_eq_zero.mp h0.symm)

end

theorem get_injective : Function.Injective (Vector.get : Vector K n → Fin n → K) := by
  intro u v h
  ext i hi
  exact congrFun h ⟨i, hi⟩

theorem get_apply (u : Vector K n) (i : Fin n) : u.get i = getElem u i.val i.isLt := rfl

@[simp] theorem get_ofFn (f : Fin n → K) : (Vector.ofFn f).get = f := by
  ext i
  simp [get_apply]

theorem get_pair (a b : K) : (#v[a, b] : Vector K 2).get = ![a, b] := by
  ext i
  fin_cases i <;> rfl

section
variable [Field K] {u v : Vector K n}

@[simp] theorem get_add : (u + v).get = u.get + v.get := by
  ext i
  simp [get_apply]

@[simp] theorem get_neg : (-u).get = -u.get := by
  ext i
  simp [get_apply]

variable [CharZero K]

@[simp] theorem decimal_zero : (0.0 : K) = 0 := by norm_num

@[simp] theorem decimal_one : (1.0 : K) = 1 := by norm_num

@[simp] theorem decimal_two : (2.0 : K) = 2 := by norm_num

@[simp] theorem decimal_half : (0.5 : K) = 1 / 2 := by norm_num

@[simp] theorem decimal_tenth : (0.1 : K) = 1 / 10 := by norm_num

end

variable [Field K] [LinearOrder K] [SquareRoot K] {a b t : K} {u v d : Vector K n}

@[simp] theorem abs_eq : Scalar.abs a = |a| := rfl

@[simp] theorem isFinite_eq : isFinite a = true := rfl

@[simp] theorem beq_eq : (a == b) = decide (a = b) := rfl

@[simp] theorem larger_eq : larger a b = max a b := by
  unfold larger
  split
  · rw [max_eq_right (le_of_lt ‹_›)]
  · rw [max_eq_left (not_lt.mp ‹_›)]

@[simp] theorem smaller_eq : smaller a b = min a b := by
  unfold smaller
  split
  · rw [min_eq_right (le_of_lt ‹_›)]
  · rw [min_eq_left (not_lt.mp ‹_›)]

@[simp] theorem peak_eq : peak a b = max a b := by
  unfold peak
  split
  · rw [max_eq_left ‹_›]
  · simp [le_of_not_ge ‹_›]

@[simp] theorem get_scale : (scale t u).get = t • u.get := by
  ext i
  simp [get_apply, scale]

@[simp] theorem get_along : (along u d t).get = u.get + t • d.get := by
  rw [along, get_add, get_scale]

theorem along_zero : along u d 0 = u := by
  apply get_injective
  simp

variable [IsStrictOrderedRing K]

@[simp] theorem get_zeros : (zeros n : Vector K n).get = 0 := by
  ext i
  simp [get_apply, zeros]

theorem dot_eq : dot u v = u.get ⬝ᵥ v.get := by
  have h : (Vector.zipWith (· * ·) u v).toList = List.ofFn fun i => u.get i * v.get i := by
    apply List.ext_getElem
    · simp
    · intro i h₁ h₂
      simp [get_apply]
  rw [dot, decimal_zero, ← Vector.foldl_toList, ← List.sum_eq_foldl, h, List.sum_ofFn]
  rfl

theorem quotient_zero : quotient a 0 = .error .divisionByZero := by
  simp [quotient]

theorem quotient_of_ne (h : b ≠ 0) : quotient a b = .ok (a / b) := by
  simp [quotient, h]

end Descent
