import Mathlib
import Descent.Proofs.Conjugacy
import Descent.Proofs.ExactSearch
import Descent.Proofs.Run.Methods

/-! In exact arithmetic, with exact searches, a quadratic is minimized in no more iterations than
there are dimensions. -/
namespace Descent
open Matrix
variable {K : Type} [Field K] [LinearOrder K] [IsStrictOrderedRing K] [SquareRoot K] {n : ℕ}
  {q : Quadratic K n}

namespace Optimizer
variable {o : Optimizer K n} {debug : Bool} {x₀ x y : Vector K n} {r₀ r r' : Run K n} {i j k : ℕ}
  {step : Step K}

/-- A quadratic is minimized with exact searches. -/
structure Suits (o : Optimizer K n) (debug : Bool) (x₀ : Vector K n) (q : Quadratic K n) :
    Prop where
  objective : o.setup.objective = q.objective
  gradient : o.setup.gradient = q.gradient
  gtol : 0 < o.setup.settings.gtol
  lands : ∀ {k r}, o.Reaches debug x₀ k r → ¬ abs r.squaredNorm < o.setup.settings.tiny →
    ∃ step, r.Lands q o.setup step

/-- The gradient after so many iterations. -/
def gradAt (o : Optimizer K n) (debug : Bool) (q : Quadratic K n) (r₀ : Run K n) (k : ℕ) :
    Fin n → K :=
  q.grad (Run.after o.setup (o.setup.settings.verifies debug) r₀ k).x.get

/-- The direction after so many iterations. -/
def directionAt (o : Optimizer K n) (debug : Bool) (r₀ : Run K n) (k : ℕ) : Fin n → K :=
  (Run.after o.setup (o.setup.settings.verifies debug) r₀ k).u.get

section
variable (hs : o.Suits debug x₀ q)
include hs

omit [IsStrictOrderedRing K] in
theorem lands_of_searches (hr : o.Reaches debug x₀ k r) (h : r.Searches o.setup step) :
    r.Lands q o.setup step := by
  obtain ⟨step', hl⟩ := hs.lands hr h.nonzero
  obtain rfl : step' = step := Except.ok.inj (hl.found.symm.trans h.found)
  exact hl

theorem advances_of_reaches (hr : o.Reaches debug x₀ k r)
    (h : r.Completes o.setup (o.setup.settings.verifies debug) r') :
    r.Advances q o.setup.settings.method r' := by
  obtain ⟨step, hsearch, -⟩ := Run.alike_of_completes h
  exact Run.advances_of_completes hs.gradient hs.gtol (lands_of_searches hs hr hsearch)
    (steers_of_reaches hr) h

variable (hb : o.Begins x₀ r₀)
include hb

omit [IsStrictOrderedRing K] in
theorem directionAt_zero : o.directionAt debug r₀ 0 = -o.gradAt debug q r₀ 0 := by
  cases hb with
  | intro hf hg =>
    obtain rfl := Setup.eq_of_vectorGradient hs.gradient hg
    change (-Vector.ofFn (q.grad x₀.get)).get = -q.grad x₀.get
    rw [get_neg, get_ofFn]

theorem advances_of_live (hk : k < o.setup.settings.maxIter)
    (hl : Run.Live o.setup (o.setup.settings.verifies debug) r₀ (k + 1)) :
    (Run.after o.setup (o.setup.settings.verifies debug) r₀ k).Advances q o.setup.settings.method
      (Run.after o.setup (o.setup.settings.verifies debug) r₀ (k + 1)) := by
  obtain ⟨hstep, hslope, hbefore, hafter, hturn, hvalue, hlast⟩ := advances_of_reaches hs
    ⟨r₀, hb, hk, hl.mono (Nat.le_succ k), rfl⟩ (Run.completes_of_live hl)
  exact ⟨hstep, hslope, hbefore, hafter, hturn, hvalue, hlast⟩

/-- As long as the run goes on, its gradients and directions are conjugate. -/
theorem conjugates_of_live (hk : k ≤ o.setup.settings.maxIter)
    (hl : Run.Live o.setup (o.setup.settings.verifies debug) r₀ k) :
    q.Conjugates (o.gradAt debug q r₀) (o.directionAt debug r₀) k ∧
      (0 < k → o.gradAt debug q r₀ k ≠ 0) := by
  induction k with
  | zero => exact ⟨.zero (directionAt_zero hs hb), fun h => absurd h (lt_irrefl 0)⟩
  | succ k ih =>
    obtain ⟨hconj, -⟩ := ih (by omega) (hl.mono (Nat.le_succ k))
    have ha := advances_of_live hs hb hk hl
    obtain ⟨t, ht⟩ : ∃ t : K, o.gradAt debug q r₀ (k + 1) =
        o.gradAt debug q r₀ k + t • q.matrix *ᵥ o.directionAt debug r₀ k := ha.step
    have hslope : o.gradAt debug q r₀ (k + 1) ⬝ᵥ o.directionAt debug r₀ k = 0 := ha.slope
    have hturn : o.directionAt debug r₀ (k + 1) = o.setup.settings.method.direction
        (o.gradAt debug q r₀ k) (o.gradAt debug q r₀ (k + 1)) (o.directionAt debug r₀ k) := ha.turn
    refine ⟨hconj.succ ha.before ht hslope ?_, fun _ => ha.after⟩
    rw [hturn, Method.direction_of_exact _ hslope ha.after,
      Method.gamma_of_orthogonal _ (hconj.gradient_orthogonal ht hslope le_rfl)]

/-- A run cannot go on for as many iterations as there are dimensions. -/
theorem lt_dim_of_live (hk : k ≤ o.setup.settings.maxIter) (hpos : 0 < k)
    (hl : Run.Live o.setup (o.setup.settings.verifies debug) r₀ k) : k < n := by
  obtain ⟨hconj, hne⟩ := conjugates_of_live hs hb hk hl
  exact hconj.lt_dim (hne hpos)

/-- After a search the gradient is orthogonal to all those so far. -/
theorem gradAt_orthogonal (hk : k < o.setup.settings.maxIter)
    (hl : Run.Live o.setup (o.setup.settings.verifies debug) r₀ k)
    (hr : r = { Run.after o.setup (o.setup.settings.verifies debug) r₀ k with nit := k })
    (h : r.Searches o.setup step) (hi : i ≤ k) :
    o.gradAt debug q r₀ i ⬝ᵥ q.grad (along r.x r.u step.step).get = 0 := by
  subst hr
  have hland := lands_of_searches hs ⟨r₀, hb, hk, hl, rfl⟩ h
  have hslope := hland.slope
  rw [get_along, Quadratic.grad_along] at hslope
  rw [get_along, Quadratic.grad_along]
  exact (conjugates_of_live hs hb (Nat.le_of_lt hk) hl).1.gradient_orthogonal rfl hslope hi

omit hb in
theorem grad_orthogonal_of_lt (hij : i < j) (hx : o.Visits debug x₀ i x)
    (hy : o.Visits debug x₀ j y) : q.grad x.get ⬝ᵥ q.grad y.get = 0 := by
  cases hy with
  | start => omega
  | moved hr hsearch =>
    obtain ⟨r₀, hb, hk, hl, rfl⟩ := hr
    rw [eq_of_visits hx hb (hl.mono (by omega))]
    exact gradAt_orthogonal hs hb hk hl rfl hsearch (by omega)

omit hb in
/-- The gradients at the points of a run are orthogonal. -/
theorem grad_orthogonal (hij : i ≠ j) (hx : o.Visits debug x₀ i x)
    (hy : o.Visits debug x₀ j y) : q.grad x.get ⬝ᵥ q.grad y.get = 0 := by
  rcases lt_or_gt_of_ne hij with hlt | hgt
  · exact grad_orthogonal_of_lt hs hlt hx hy
  · rw [dotProduct_comm]
    exact grad_orthogonal_of_lt hs hgt hy hx

omit hb in
theorem direction_conjugate_of_lt {d e : Vector K n} (hij : i < j)
    (hx : o.Launches debug x₀ i x d) (hy : o.Launches debug x₀ j y e) :
    d.get ⬝ᵥ q.matrix *ᵥ e.get = 0 := by
  obtain ⟨r, ⟨r₀, hb, -, -, rfl⟩, -, rfl, rfl⟩ := hx
  obtain ⟨r', ⟨r₁, hb', hk, hl, rfl⟩, -, rfl, rfl⟩ := hy
  rw [← begins_unique hb hb'] at hl ⊢
  exact (conjugates_of_live hs hb (Nat.le_of_lt hk) hl).1.directions i j hij le_rfl

omit hb in
/-- The directions of a run are conjugate. -/
theorem direction_conjugate {d e : Vector K n} (hij : i ≠ j) (hx : o.Launches debug x₀ i x d)
    (hy : o.Launches debug x₀ j y e) : d.get ⬝ᵥ q.matrix *ᵥ e.get = 0 := by
  rcases lt_or_gt_of_ne hij with hlt | hgt
  · exact direction_conjugate_of_lt hs hlt hx hy
  · rw [Quadratic.dot_mulVec_comm]
    exact direction_conjugate_of_lt hs hgt hy hx

/-- Between iterations the value is that at the point, and it is the last one. -/
theorem value_of_live (hk : k ≤ o.setup.settings.maxIter)
    (hl : Run.Live o.setup (o.setup.settings.verifies debug) r₀ k) :
    let r := Run.after o.setup (o.setup.settings.verifies debug) r₀ k
    r.fmin = q.value r.x.get ∧ r.fx = r.fmin := by
  cases k with
  | zero =>
    cases hb with
    | intro hf hg =>
      rw [hs.objective] at hf
      exact ⟨(Except.ok.inj hf).symm, rfl⟩
  | succ k =>
    have ha := advances_of_live hs hb hk hl
    exact ⟨ha.value, ha.last⟩

/-- A search from a point without gradient ends the run. -/
theorem gradAt_ne_zero (hk : k < o.setup.settings.maxIter)
    (hl : Run.Live o.setup (o.setup.settings.verifies debug) r₀ k)
    (hr : r = { Run.after o.setup (o.setup.settings.verifies debug) r₀ k with nit := k })
    (h : r.Searches o.setup step) (hn : ¬ (r.moved o.setup step).Steady o.setup) :
    q.grad r.x.get ≠ 0 := by
  subst hr
  obtain ⟨hconj, hpos⟩ := conjugates_of_live hs hb (Nat.le_of_lt hk) hl
  rcases Nat.eq_zero_or_pos k with rfl | hk0
  · intro h0
    apply hn
    have h0 : o.gradAt debug q r₀ 0 = 0 := h0
    have hu : o.directionAt debug r₀ 0 = 0 := by rw [directionAt_zero hs hb, h0, neg_zero]
    have hu : r₀.u.get = 0 := hu
    have hland := lands_of_searches hs ⟨r₀, hb, hk, hl, rfl⟩ h
    obtain ⟨hvalue, hlast⟩ := value_of_live hs hb (Nat.le_of_lt hk) hl
    apply Run.steady_of_eq
    rw [hland.value, get_along]
    change q.value (r₀.x.get + step.step • r₀.u.get) = r₀.fx
    rw [hu, smul_zero, add_zero]
    exact (hlast.trans hvalue).symm
  · exact hpos hk0

/-- The point is the minimizer, or one of the two tests of the gradient holds there. -/
def Settles (o : Optimizer K n) (q : Quadratic K n) (x : Vector K n) : Prop :=
  x.get = q.matrix⁻¹ *ᵥ q.offset ∨ q.grad x.get ⬝ᵥ q.grad x.get < o.setup.settings.tiny ∨
    Run.scaledGradient x (.ofFn (q.grad x.get)) / max (q.value x.get) 1 < o.setup.settings.gtol

/-- Without tolerance for values, a search that changes nothing starts at the minimizer. -/
theorem settles_of_steady (hk : k < o.setup.settings.maxIter)
    (hl : Run.Live o.setup (o.setup.settings.verifies debug) r₀ k)
    (hr : r = { Run.after o.setup (o.setup.settings.verifies debug) r₀ k with nit := k })
    (h : r.Searches o.setup step) (hf : o.setup.settings.ftol = 0)
    (hst : (r.moved o.setup step).Steady o.setup) :
    o.Settles q (along r.x r.u step.step) := by
  subst hr
  have hland := lands_of_searches hs ⟨r₀, hb, hk, hl, rfl⟩ h
  obtain ⟨hvalue, hlast⟩ := value_of_live hs hb (Nat.le_of_lt hk) hl
  have hsame := (Run.eq_of_steady hf hst).trans (hlast.trans hvalue)
  rw [hland.value, get_along] at hsame
  have hdesc := (conjugates_of_live hs hb (Nat.le_of_lt hk) hl).1.descends
  have hslope := hland.slope
  rw [get_along] at hslope
  left
  rw [get_along]
  exact Quadratic.minimizer_of_value_eq hslope hsame hdesc

/-- Every end but an exhausted budget is a regular one. -/
theorem converges_of_ends {e : Exit K} (hv : o.setup.settings.verifies debug = false)
    (hk : k < o.setup.settings.maxIter)
    (hl : Run.Live o.setup (o.setup.settings.verifies debug) r₀ k)
    (hr : r = { Run.after o.setup (o.setup.settings.verifies debug) r₀ k with nit := k })
    (h : r.Ends o.setup (o.setup.settings.verifies debug) r' e) :
    (∃ status value, e = .converged status value) ∧ r'.nit = k ∧
      (o.setup.settings.ftol = 0 → o.Settles q r'.x) := by
  have hreach : o.Reaches debug x₀ k r := ⟨r₀, hb, hk, hl, hr⟩
  have hnit : r.nit = k := by rw [hr]
  cases h with
  | zeroGradient hz =>
    refine ⟨⟨_, _, rfl⟩, hnit, fun _ => .inr (.inl ?_)⟩
    rw [Run.squaredNorm_eq hs.gradient (steers_of_reaches hreach)] at hz
    exact lt_of_le_of_lt (le_abs_self _) hz
  | searchFails hz hsearch =>
    obtain ⟨step, hland⟩ := hs.lands hreach hz
    rw [hland.found] at hsearch
    cases hsearch
  | functionTolerance hsearch hf =>
    exact ⟨⟨_, _, rfl⟩, hnit, fun h0 => settles_of_steady hs hb hk hl hr hsearch h0 hf⟩
  | gradientFails hsearch hf hg =>
    rw [Setup.vectorGradient_quadratic hs.gradient] at hg
    cases hg
  | checkFails hsearch hf hg ht hc =>
    rw [hv] at ht
    cases ht
  | testFails hd ht =>
    rw [Run.slopeTest_eq] at ht
    cases ht
  | gradientTolerance hd ht hg =>
    obtain ⟨step, u, nfev, hsearch, -, hu, rfl⟩ := Run.eq_of_differentiates hd
    refine ⟨⟨_, _, rfl⟩, hnit, fun _ => .inr (.inr ?_)⟩
    obtain rfl := Setup.eq_of_vectorGradient hs.gradient hu
    rw [Run.slopeTest_eq] at ht
    rw [← Except.ok.inj ht] at hg
    have hland := lands_of_searches hs hreach hsearch
    have hvalue : ((r.moved o.setup step).differentiated
      (.ofFn (q.grad (r.moved o.setup step).x.get))).fx = q.value (along r.x r.u step.step).get :=
        hland.value
    rw [hvalue] at hg
    exact hg
  | weightFails hp hw =>
    obtain ⟨step, u, nfev, hsearch, hf, -, rfl⟩ := Run.eq_of_differentiates hp.differentiates
    have hne := gradAt_ne_zero hs hb hk hl hr hsearch hf
    have hsq : r.squaredNorm ≠ 0 := by
      rw [Run.squaredNorm_eq hs.gradient (steers_of_reaches hreach)]
      exact (dot_self_pos hne).ne'
    have hw : quotient _ r.squaredNorm = _ := hw
    rw [quotient_of_ne hsq] at hw
    cases hw

omit hb in
/-- All methods have the same weights. -/
theorem weight_eq (hr : o.Reaches debug x₀ k r)
    (hp : r.Passes o.setup (o.setup.settings.verifies debug) r') (m : Method) :
    r'.weight m = r'.weight o.setup.settings.method := by
  have horth : r'.g.get ⬝ᵥ r'.u.get = 0 := by
    have hneg := (steers_of_reaches hr).eq_neg (Setup.vectorGradient_quadratic hs.gradient r.x)
    obtain ⟨step, u, nfev, hsearch, -, hu, rfl⟩ := Run.eq_of_differentiates hp.differentiates
    obtain rfl := Setup.eq_of_vectorGradient hs.gradient hu
    change r.g.get ⬝ᵥ (Vector.ofFn (q.grad (along r.x r.u step.step).get)).get = 0
    obtain ⟨r₁, hb₁, hk, hl, h⟩ := hr
    rw [hneg, get_neg, neg_dotProduct, neg_eq_zero, get_ofFn, get_ofFn]
    have hg := gradAt_orthogonal hs hb₁ hk hl h hsearch le_rfl
    have hx : o.gradAt debug q r₁ k = q.grad r.x.get := by
      rw [h]
      rfl
    rwa [hx] at hg
  rw [Run.weight_of_orthogonal horth, Run.weight_of_orthogonal horth]

/-- The run ends regularly, in fewer iterations than there are dimensions. -/
theorem converges (hv : o.setup.settings.verifies debug = false) (hn : 1 ≤ n)
    (hiter : n ≤ o.setup.settings.maxIter) :
    (∃ status value, (o.finish debug r₀).exit = .converged status value) ∧
      (o.finish debug r₀).run.nit ≤ n - 1 ∧
      (o.setup.settings.ftol = 0 → o.Settles q (o.finish debug r₀).run.x) := by
  rcases finish_cases debug hb with ⟨k, r, ⟨r₁, hb₁, hk, hl, hr⟩, he⟩ | ⟨hl, -, -⟩
  · rw [← begins_unique hb hb₁] at hl hr
    obtain ⟨hconverged, hnit, hsettles⟩ := converges_of_ends hs hb hv hk hl hr he
    refine ⟨hconverged, ?_, hsettles⟩
    rw [hnit]
    by_contra hlt
    have hdim := lt_dim_of_live hs hb hiter (by omega) (hl.mono (by omega))
    omega
  · have hdim := lt_dim_of_live hs hb hiter (by omega) (hl.mono hiter)
    omega

end

/-- No iteration restarts. -/
theorem not_restarts (hs : o.Suits debug x₀ q) (hr : o.Reaches debug x₀ k r) {gamma : K} :
    ¬ r.Restarts o.setup (o.setup.settings.verifies debug) r' gamma := by
  intro h
  have ha := advances_of_reaches hs hr (.intro h.passes h.weight)
  have hslope := ha.slope
  have hafter := ha.after
  rw [(Run.turned_alike _ _).x] at hslope hafter
  have hc := Setup.vectorGradient_quadratic hs.gradient r.x
  obtain ⟨-, hu, -, -⟩ := Run.sum_of_passes (steers_of_reaches hr) hc h.passes h.weight
  have hu := Setup.eq_of_vectorGradient hs.gradient hu
  have hn := Run.not_descends_of_restarts (steers_of_reaches hr) hc h
  rw [hu, get_ofFn, get_ofFn] at hn
  exact hn (Method.descends_of_exact _ hslope hafter)

theorem suits_of_exact (hf : o.setup.objective = q.objective) (hg : o.setup.gradient = q.gradient)
    (hgtol : 0 < o.setup.settings.gtol)
    (hexact : ∀ k r, o.Reaches debug x₀ k r → ¬ abs r.squaredNorm < o.setup.settings.tiny →
      r.Exact q o.setup) : o.Suits debug x₀ q where
  objective := hf
  gradient := hg
  gtol := hgtol
  lands := fun hr hz => Run.lands_of_exact hf hg (hexact _ _ hr hz)

/-- With exact searches a quadratic of `n` variables is minimized in at most `n` iterations, the
last of which has number `n - 1`. The gradients are orthogonal, the directions are conjugate, no
iteration restarts, and the method makes no difference. -/
theorem minimize_quadratic (o : Optimizer K n) (debug : Bool) (c : Candidate K) {x₀ : Vector K n}
    (q : Quadratic K n) (hn : 1 ≤ n) (hc : c.toPoint n = .ok x₀)
    (hf : o.setup.objective = q.objective) (hg : o.setup.gradient = q.gradient)
    (hgtol : 0 < o.setup.settings.gtol) (hiter : n ≤ o.setup.settings.maxIter)
    (hcheck : o.setup.settings.verifies debug = false)
    (hexact : ∀ k r, o.Reaches debug x₀ k r → ¬ abs r.squaredNorm < o.setup.settings.tiny →
      r.Exact q o.setup) :
    (∃ report value, o.minimize debug c = .ok report ∧ report.outcome = .ok value ∧
      report.optimizer.memory.nit ≤ n - 1 ∧
      (o.setup.settings.ftol = 0 → o.Settles q report.point) ∧
      ∀ m, .notice (.restarted m) ∈ report.events → ∃ k r, o.Reaches debug x₀ k r ∧
        .notice (.restarted m) ∈ (r.searched o.setup).found.events) ∧
    (∀ i j x y, i ≠ j → o.Visits debug x₀ i x → o.Visits debug x₀ j y →
      q.grad x.get ⬝ᵥ q.grad y.get = 0) ∧
    (∀ i j x y d e, i ≠ j → o.Launches debug x₀ i x d → o.Launches debug x₀ j y e →
      d.get ⬝ᵥ q.matrix *ᵥ e.get = 0) ∧
    (∀ k r r', o.Reaches debug x₀ k r →
      r.Completes o.setup (o.setup.settings.verifies debug) r' →
        let g := q.grad r.x.get
        let g' := q.grad r'.x.get
        let d := o.setup.settings.method.gamma g g' • r.u.get - g'
        g' ⬝ᵥ d < 0 ∧ r'.u.get = d) ∧
    (∀ m, (∀ k x, (o.withMethod m).Visits debug x₀ k x ↔ o.Visits debug x₀ k x) ∧
      ∃ report report', o.minimize debug c = .ok report ∧
        (o.withMethod m).minimize debug c = .ok report' ∧
        report'.point = report.point ∧ report'.outcome = report.outcome) := by
  have hs := suits_of_exact hf hg hgtol hexact
  obtain ⟨r₀, hb⟩ : ∃ r₀, o.Begins x₀ r₀ :=
    ⟨_, .intro (by rw [hf]; rfl) (Setup.vectorGradient_quadratic hg x₀)⟩
  obtain ⟨hpoint, hexit, hopt, -⟩ := minimizeFrom_of_begins debug hb
  refine ⟨?_, ?_, ?_, ?_, ?_⟩
  · obtain ⟨⟨status, value, hconverged⟩, hnit, hsettles⟩ := converges hs hb hcheck hn hiter
    refine ⟨_, value, minimize_of_toPoint hc, ?_, ?_, ?_, ?_⟩
    · rw [Report.outcome, hexit, hconverged]
    · rw [hopt]
      exact hnit
    · rw [hpoint]
      exact hsettles
    · intro m hm
      obtain ⟨k, r, hr, ⟨-, hmem⟩ | ⟨r', gamma, h⟩⟩ := restarted_cases hb hm
      · exact ⟨k, r, hr, hmem⟩
      · exact (not_restarts hs hr h).elim
  · intro i j x y hij hx hy
    exact grad_orthogonal hs hij hx hy
  · intro i j x y d e hij hx hy
    exact direction_conjugate hs hij hx hy
  · intro k r r' hr h
    have ha := advances_of_reaches hs hr h
    exact ⟨Method.descends_of_exact _ ha.slope ha.after,
      ha.turn.trans (Method.direction_of_exact _ ha.slope ha.after)⟩
  · intro m
    have hw : ∀ {k r r'}, o.Reaches debug x₀ k r →
        r.Passes o.setup (o.setup.settings.verifies debug) r' →
          r'.weight m = r'.weight o.setup.settings.method :=
      fun hr hp => weight_eq hs hr hp m
    refine ⟨fun k x => visits_withMethod hb hw, ?_⟩
    have hb' : (o.withMethod m).Begins x₀ r₀ := begins_withMethod hb
    obtain ⟨hpoint', hexit', hopt', -⟩ := minimizeFrom_of_begins debug hb'
    have hfinish := finish_withMethod hb hw
    refine ⟨_, _, minimize_of_toPoint hc, minimize_of_toPoint hc, ?_, ?_⟩
    · rw [hpoint', hpoint, hfinish]
    · rw [Report.outcome, Report.outcome, hexit', hexit, hfinish, hopt', hopt]
      rfl

theorem minimize_quadratic_bowl :
    let o : Optimizer ℚ 2 := .ofQuadratic .bowl .secant
    ∃ report value, o.minimize false (.ofVector #v[3, 2]) = .ok report ∧
      report.outcome = .ok value ∧ report.optimizer.memory.nit ≤ 1 ∧
      o.Settles .bowl report.point := by
  intro o
  have hgtol : (0 : ℚ) < 1e-8 := by norm_num
  obtain ⟨⟨report, value, hm, ho, hn, hs, -⟩, -⟩ := minimize_quadratic o false
    (.ofVector #v[3, 2]) .bowl (by decide) (Candidate.toPoint_ofVector _) rfl rfl hgtol (by decide)
    rfl fun k r hr _ => Run.exact_of_secant rfl rfl (strategy_of_reaches hr)
  exact ⟨report, value, hm, ho, hn, hs decimal_zero⟩

end Optimizer
end Descent
