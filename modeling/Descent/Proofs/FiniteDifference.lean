import Mathlib
import Descent.Proofs.Quadratic
import Descent.Proofs.Run.Checks
import Descent.Proofs.Scratch

/-! In exact arithmetic the difference quotient of a quartic is its derivative: a check refuses a
gradient at its first wrong component, and refuses no other gradient. -/
namespace Descent

namespace GradientCheck
variable {K : Type} [Scalar K] {n : ℕ} {f : Objective K n} {g : List K} {x : Vector K n}
  {o : Options K} {d : Fin n → K}

/-- The components that pass come before the first that fails, and the points are those of all of
them. -/
theorem cases_of_components
    (hd : ∀ k : Fin n, derivative (fun t => f (x.set k t k.isLt)) (x.get k) o.step = ⟨.ok (d k),
      [x.get k - 2.0 * o.step, x.get k - o.step, x.get k + o.step, x.get k + 2.0 * o.step]⟩)
    (ks : List (Fin n)) (s : State K n) :
    let r := components f g x o ks s
    (r.outcome = .ok () ∧ ∀ k ∈ ks, verdict g o k (d k) = .ok ()) ∨
      ∃ i, ∃ h : i < ks.length, ∃ e, r.outcome = .error e ∧
        verdict g o ks[i] (d ks[i]) = .error e ∧
        (∀ k ∈ ks.take i, verdict g o k (d k) = .ok ()) ∧
        r.state.evals = s.evals + 4 * (i + 1) ∧
        r.state.points = s.points ++ (ks.take (i + 1)).flatMap (probesAt o.step x) := by
  induction ks generalizing s with
  | nil => exact .inl ⟨rfl, by simp⟩
  | cons k ks ih =>
    have hk := component_eq (f := f) (g := g) (x := x) (o := o) k s
    dsimp only at hk
    rw [hd, Except.bind] at hk
    rw [components, hk]
    dsimp only
    cases hv : verdict g o k (d k) with
    | error e =>
      refine .inr ⟨0, Nat.succ_pos _, e, rfl, hv, by simp, rfl, ?_⟩
      rw [List.take_succ_cons, List.take_zero, List.flatMap_singleton]
      rfl
    | ok =>
      rcases ih (s.sampled x k _) with ⟨ho, hall⟩ | ⟨i, hi, e, ho, he, hall, hevals, hpoints⟩
      · exact .inl ⟨ho, List.forall_mem_cons.mpr ⟨hv, hall⟩⟩
      · refine .inr ⟨i + 1, Nat.succ_lt_succ hi, e, ho, he, ?_, ?_, ?_⟩
        · rw [List.take_succ_cons]
          exact List.forall_mem_cons.mpr ⟨hv, hall⟩
        · rw [hevals, State.sampled]
          dsimp only [List.length]
          omega
        · rw [hpoints, List.take_succ_cons, List.flatMap_cons, ← List.append_assoc]
          rfl

end GradientCheck

section
variable {K : Type} [Field K] [LinearOrder K] [IsStrictOrderedRing K] [SquareRoot K]
  {q : Polynomial K} {x h : K}

/-- The five-point rule is exact on quartics. -/
theorem centralQuotient_quartic (hq : q.natDegree ≤ 4) (hh : h ≠ 0) :
    centralQuotient (q.eval (x - 2.0 * h)) (q.eval (x - h)) (q.eval (x + h))
      (q.eval (x + 2.0 * h)) h = .ok (q.derivative.eval x) := by
  have h12 : (12.0 : K) * h ≠ 0 := by
    apply mul_ne_zero _ hh
    norm_num
  rw [centralQuotient, quotient_of_ne h12]
  congr 1
  rw [div_eq_iff h12, q.as_sum_range' 5 (by omega)]
  simp only [Finset.sum_range_succ, Finset.sum_range_zero, zero_add, Polynomial.derivative_add,
    Polynomial.derivative_monomial, Polynomial.eval_add, Polynomial.eval_monomial]
  norm_num
  ring

theorem derivative_quartic {φ : K → Except (Fault K) K} (hφ : ∀ t, φ t = .ok (q.eval t))
    (hq : q.natDegree ≤ 4) (hh : 0 < h) :
    derivative φ x h =
      ⟨.ok (q.derivative.eval x), [x - 2.0 * h, x - h, x + h, x + 2.0 * h]⟩ := by
  have hpos : ¬ h ≤ 0.0 := by
    rw [decimal_zero]
    exact not_le.mpr hh
  have hs : ∀ t, derivative.sample φ t = ⟨.ok (q.eval t), [t]⟩ := by
    intro t
    rw [derivative.sample, hφ]
  rw [derivative, if_neg hpos]
  simp only [hs]
  change (⟨centralQuotient _ _ _ _ h, _⟩ : Traced K (Fault K) K) = _
  rw [centralQuotient_quartic hq hh.ne']
  rfl

namespace GradientCheck
variable {n : ℕ} {o : Options K}

omit [IsStrictOrderedRing K] in
theorem verdict_exact (g : Vector K n) (k : Fin n) (d : K) :
    verdict g.toList o k d =
      if o.tol < |g.get k - d| then .error (.gradientMismatch k d (g.get k) |g.get k - d|)
      else .ok () := by
  have hk : g.toList[k.val]? = some (g.get k) := by
    rw [Vector.getElem?_toList, Vector.getElem?_eq_getElem k.isLt]
    rfl
  rw [verdict, hk]
  rfl

omit [IsStrictOrderedRing K] in
theorem verdict_eq_ok {g : Vector K n} {k : Fin n} {d : K} :
    verdict g.toList o k d = .ok () ↔ |g.get k - d| ≤ o.tol := by
  rw [verdict_exact, ← not_lt]
  constructor
  · intro h hlt
    rw [if_pos hlt] at h
    cases h
  · intro h
    rw [if_neg h]

omit [IsStrictOrderedRing K] in
theorem verdict_eq_error {g : Vector K n} {k : Fin n} {d : K} {e : Fault K}
    (h : verdict g.toList o k d = .error e) :
    o.tol < |g.get k - d| ∧ e = .gradientMismatch k d (g.get k) |g.get k - d| := by
  rw [verdict_exact] at h
  split at h
  · cases h
    exact ⟨‹_›, rfl⟩
  · cases h

/-- Along each coordinate line through `x` the objective is a quartic. A check then succeeds just
where no component is farther than the tolerance from the derivative; otherwise it fails at the
first that is. Each component up to there is probed at four points, which have nothing of the probes
of the others. In place, in any scratch vector, the same is done, and the point is left alone. -/
theorem run_quartic (f : Objective K n) (p : Fin n → Polynomial K) (x : Vector K n)
    (hp : ∀ k, (p k).natDegree ≤ 4)
    (hf : ∀ (k : Fin n) (t : K), f (x.set k t k.isLt) = .ok ((p k).eval t))
    (g : Vector K n) (ho : 0 < o.step) (work : Vector K n) :
    let d (k : Fin n) := (p k).derivative.eval (x.get k)
    let r := run f g.toList x o work
    (r.outcome = .ok () ↔ ∀ k, |g.get k - d k| ≤ o.tol) ∧
    (match r.outcome with
    | .ok () => r.state.evals = 4 * n ∧ r.state.points = probes o.step x
    | .error e => ∃ k : Fin n, (∀ j < k, |g.get j - d j| ≤ o.tol) ∧ o.tol < |g.get k - d k| ∧
        e = .gradientMismatch k (d k) (g.get k) |g.get k - d k| ∧
        r.state.evals = 4 * (k + 1) ∧
        r.state.points = ((List.finRange n).take (k + 1)).flatMap (probesAt o.step x)) ∧
    runIn f g.toList o ⟨⟨work, 0, []⟩, x⟩ = match r.outcome with
      | .ok () => .ok r.state.evals ⟨r.state, x⟩
      | .error e => .error e ⟨r.state, x⟩ := by
  intro d r
  have hcases := cases_of_components (g := g.toList) (d := d)
    (fun k => derivative_quartic (hf k) (hp k) ho) (List.finRange n) ⟨work, 0, []⟩
  change (r.outcome = .ok () ∧ _) ∨ (∃ i, ∃ h : i < _, ∃ e, r.outcome = .error e ∧ _) at hcases
  rcases hcases with ⟨hok, hall⟩ | ⟨i, hi, e, herror, hv, hall, hevals, hpoints⟩
  · have hle : ∀ k, |g.get k - d k| ≤ o.tol :=
      fun k => verdict_eq_ok.mp (hall k (List.mem_finRange k))
    refine ⟨iff_of_true hok hle, ?_, runIn_eq work⟩
    rw [hok]
    exact ⟨evals_of_run hok, points_of_run hok⟩
  · have hin : i < n := hi.trans_eq List.length_finRange
    rw [List.getElem_finRange] at hv
    obtain ⟨hgt, he⟩ := verdict_eq_error hv
    have hne : r.outcome ≠ .ok () := by
      rw [herror]
      rintro ⟨⟩
    refine ⟨iff_of_false hne fun h => not_le.mpr hgt (h _), ?_, runIn_eq work⟩
    rw [herror]
    refine ⟨⟨i, hin⟩, fun j hj => ?_, hgt, he, hevals.trans (Nat.zero_add _), hpoints⟩
    have hj' : j.val < ((List.finRange n).take i).length := by
      rw [List.length_take, List.length_finRange]
      exact lt_min hj j.isLt
    have hmem := List.getElem_mem hj'
    rw [List.getElem_take, List.getElem_finRange] at hmem
    exact verdict_eq_ok.mp (hall j hmem)

/-- A gradient and one that is wrong in its second component, checked in a used scratch vector. -/
theorem run_quartic_saddle :
    let f : Objective ℚ 2 := fun y => .ok (y.get 0 ^ 4 * y.get 1 - 3 * y.get 0 * y.get 1 ^ 2)
    let check (g : Vector ℚ 2) := run f g.toList #v[2, -1] ⟨1 / 10, 1⟩ #v[7, 7]
    (check #v[-35, 28]).outcome = .ok () ∧ (check #v[-35, 28]).state.evals = 8 ∧
    (check #v[-35, 27]).outcome = .error (.gradientMismatch 1 28 27 1) ∧
    (check #v[-35, 27]).state.evals = 8 := by
  intro f check
  let q₀ : Polynomial ℚ := -Polynomial.X ^ 4 - 3 * Polynomial.X
  let q₁ : Polynomial ℚ := 16 * Polynomial.X - 6 * Polynomial.X ^ 2
  have hp : ∀ k, (![q₀, q₁] k).natDegree ≤ 4 := by
    intro k
    fin_cases k
    · change (-Polynomial.X ^ 4 - 3 * Polynomial.X : Polynomial ℚ).natDegree ≤ 4
      compute_degree
    · change (16 * Polynomial.X - 6 * Polynomial.X ^ 2 : Polynomial ℚ).natDegree ≤ 4
      compute_degree!
  have hf : ∀ (k : Fin 2) (t : ℚ),
      f (#v[2, -1].set k t k.isLt) = .ok ((![q₀, q₁] k).eval t) := by
    intro k t
    fin_cases k
    · change Except.ok (t ^ 4 * -1 - 3 * t * (-1) ^ 2) = .ok (q₀.eval t)
      simp [q₀]
    · change Except.ok (2 ^ 4 * t - 3 * 2 * t ^ 2) = .ok (q₁.eval t)
      norm_num [q₁]
  have hd : ∀ k, (![q₀, q₁] k).derivative.eval ((#v[2, -1] : Vector ℚ 2).get k) =
      ![-35, 28] k := by
    intro k
    fin_cases k
    · change q₀.derivative.eval 2 = -35
      norm_num [q₀]
    · change q₁.derivative.eval (-1) = 28
      norm_num [q₁]
  have hcheck := fun g => 
    run_quartic f ![q₀, q₁] #v[2, -1] hp hf g (o := ⟨1 / 10, 1⟩) one_pos #v[7, 7]
  simp only [hd] at hcheck
  obtain ⟨hright, hevals, -⟩ := hcheck #v[-35, 28]
  have hok : (check #v[-35, 28]).outcome = .ok () := hright.mpr (by decide +kernel)
  rw [show (run f _ _ _ _).outcome = .ok () from hok] at hevals
  obtain ⟨hwrong, hfirst, -⟩ := hcheck #v[-35, 27]
  cases ho : (check #v[-35, 27]).outcome with
  | ok => exact absurd (hwrong.mp ho 1) (by decide +kernel)
  | error e =>
    rw [show (run f _ _ _ _).outcome = .error e from ho] at hfirst
    obtain ⟨k, -, hgt, rfl, hevals', -⟩ := hfirst
    fin_cases k
    · exact absurd hgt (by decide +kernel)
    · refine ⟨hok, hevals.1, ?_, hevals'⟩
      have hdiff : |(27 : ℚ) - 28| = 1 := by norm_num
      rw [← hdiff]
      rfl

end GradientCheck
end
end Descent
