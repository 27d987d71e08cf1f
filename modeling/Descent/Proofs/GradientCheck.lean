import Descent.GradientCheck
import Descent.Proofs.Outcome

/-! What a check of the gradient evaluates: four values for each component that it compares. -/
namespace Descent
variable {K : Type} {n : Nat}

namespace GradientCheck

/-- The state after samples at these places of one component. -/
def State.sampled (x : Vector K n) (k : Fin n) (s : State K n) (ts : List K) : State K n :=
  let points := ts.map (x.set k · k.isLt)
  ⟨points.getLastD s.work, s.evals + ts.length, s.points ++ points⟩

end GradientCheck

variable [Scalar K]

/-- An estimate of the derivative is the quotient of four samples. -/
theorem samples_of_derivative {f : K → Except (Fault K) K} {x h d : K} {es : List K}
    (hd : derivative f x h = ⟨.ok d, es⟩) : ∃ a b c e,
      f (x - 2.0 * h) = .ok a ∧ f (x - h) = .ok b ∧ f (x + h) = .ok c ∧
      f (x + 2.0 * h) = .ok e ∧ centralQuotient a b c e h = .ok d ∧
      es = [x - 2.0 * h, x - h, x + h, x + 2.0 * h] := by
  unfold derivative at hd
  dsimp only at hd
  split at hd
  · cases hd
  rw [Traced.bind_eq_ok] at hd
  obtain ⟨a, es₁, es', ha, hd, rfl⟩ := hd
  rw [Traced.bind_eq_ok] at hd
  obtain ⟨b, es₂, es', hb, hd, rfl⟩ := hd
  rw [Traced.bind_eq_ok] at hd
  obtain ⟨c, es₃, es', hc, hd, rfl⟩ := hd
  rw [Traced.bind_eq_ok] at hd
  obtain ⟨e, es₄, es', he, hd, rfl⟩ := hd
  rw [derivative.sample, Traced.mk.injEq] at ha hb hc he
  obtain ⟨ha, rfl⟩ := ha
  obtain ⟨hb, rfl⟩ := hb
  obtain ⟨hc, rfl⟩ := hc
  obtain ⟨he, rfl⟩ := he
  cases hq : centralQuotient a b c e h with
  | error _ =>
    rw [hq] at hd
    cases hd
  | ok q =>
    rw [hq] at hd
    cases hd
    exact ⟨a, b, c, e, ha, hb, hc, he, hq, rfl⟩

namespace GradientCheck
variable {f : Objective K n} {g : List K} {x : Vector K n} {o : Options K}

/-- How a component fares against an estimate of it. -/
def verdict (g : List K) (o : Options K) (k : Fin n) (expected : K) : Except (Fault K) Unit :=
  match g[k.val]? with
  | none => .error (.componentMissing k g.length)
  | some actual =>
    let diff := abs (actual - expected)
    if diff > o.tol then .error (.gradientMismatch k expected actual diff) else .ok ()

theorem component_eq (k : Fin n) (s : State K n) :
    let r := derivative (fun t => f (x.set k t k.isLt)) (x.get k) o.step
    component f g x o k s = ⟨s.sampled x k r.events, r.outcome.bind (verdict g o k)⟩ := by
  intro r
  unfold component
  dsimp only
  split
  · rename_i e ho
    rw [show r.outcome = .error e from ho]
    rfl
  · rename_i expected ho hg
    rw [show r.outcome = .ok expected from ho, Except.bind, verdict, hg]
    rfl
  · rename_i expected actual ho hg
    rw [show r.outcome = .ok expected from ho, Except.bind, verdict, hg]
    dsimp only
    split <;> rfl

/-- Every evaluation is counted, and its point is kept. -/
theorem points_component (k : Fin n) (s : State K n) :
    (component f g x o k s).state.evals + s.points.length =
      s.evals + (component f g x o k s).state.points.length := by
  rw [component_eq]
  simp only [State.sampled, List.length_append, List.length_map]
  omega

theorem points_components (ks : List (Fin n)) (s : State K n) :
    (components f g x o ks s).state.evals + s.points.length =
      s.evals + (components f g x o ks s).state.points.length := by
  induction ks generalizing s with
  | nil => rfl
  | cons k ks ih =>
    have hk := points_component (f := f) (g := g) (x := x) (o := o) k s
    rw [components]
    split
    · have hks := ih (component f g x o k s).state
      omega
    · exact hk

/-- A component that passes has been sampled at four places. -/
theorem state_of_component {k : Fin n} {s : State K n}
    (h : (component f g x o k s).outcome = .ok ()) :
    (component f g x o k s).state = s.sampled x k
      [x.get k - 2.0 * o.step, x.get k - o.step, x.get k + o.step, x.get k + 2.0 * o.step] := by
  rw [component_eq] at h ⊢
  cases ho : (derivative (fun t => f (x.set k t k.isLt)) (x.get k) o.step).outcome with
  | error e =>
    rw [ho] at h
    cases h
  | ok expected =>
    obtain ⟨a, b, c, d, -, -, -, -, -, hes⟩ := samples_of_derivative (Traced.eq_of_outcome ho)
    rw [hes]

theorem evals_component {k : Fin n} {s : State K n}
    (h : (component f g x o k s).outcome = .ok ()) :
    (component f g x o k s).state.evals = s.evals + 4 := by
  rw [state_of_component h]
  rfl

/-- The components after one that passes are compared from the state it leaves. -/
theorem components_cons {k : Fin n} {ks : List (Fin n)} {s : State K n}
    (h : (components f g x o (k :: ks) s).outcome = .ok ()) :
    (component f g x o k s).outcome = .ok () ∧
      components f g x o (k :: ks) s = components f g x o ks (component f g x o k s).state := by
  rw [components] at h ⊢
  cases hk : (component f g x o k s).outcome with
  | error e =>
    simp only [hk] at h
    cases h
  | ok => exact ⟨rfl, rfl⟩

theorem evals_components {ks : List (Fin n)} {s : State K n}
    (h : (components f g x o ks s).outcome = .ok ()) :
    (components f g x o ks s).state.evals = s.evals + 4 * ks.length := by
  induction ks generalizing s with
  | nil => rfl
  | cons k ks ih =>
    obtain ⟨hk, heq⟩ := components_cons h
    rw [heq] at h ⊢
    rw [ih h, evals_component hk, List.length_cons]
    omega

/-- The number of evaluations is that of the points. -/
theorem evals_run (f : Objective K n) (g : List K) (x : Vector K n) (o : Options K)
    (work : Vector K n) :
    (run f g x o work).state.evals = (run f g x o work).state.points.length := by
  have h := points_components (f := f) (g := g) (x := x) (o := o) (List.finRange n) ⟨work, 0, []⟩
  rw [List.length_nil, Nat.add_zero, Nat.zero_add] at h
  exact h

/-- A check that succeeds takes four values for each component. -/
theorem evals_of_run {work : Vector K n} (h : (run f g x o work).outcome = .ok ()) :
    (run f g x o work).state.evals = 4 * n := by
  have hevals := evals_components h
  rw [List.length_finRange, Nat.zero_add] at hevals
  exact hevals

end GradientCheck
end Descent
