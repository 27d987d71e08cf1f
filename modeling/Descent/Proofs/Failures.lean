import Mathlib
import Descent.Proofs.Afresh
import Descent.Proofs.Directions
import Descent.Proofs.Run.Exact
import Descent.Proofs.Search.Division
import Descent.Proofs.Stopping

/-! The ways in which a call can fail in exact arithmetic, apart from failures of the functions
themselves: none of them is a division by zero. -/
namespace Descent
open Matrix

namespace Setup
variable {K : Type} [Scalar K] {n : ℕ} {s : Setup K n} {x d : Vector K n} {e : Fault K}

/-- One of the functions fails in this way. -/
def Throws (s : Setup K n) (e : Fault K) : Prop :=
  (∃ x, s.objective x = .error e) ∨ ∃ x, s.gradient x = .error e

/-- Every gradient is a vector of the right length. -/
def Shaped (s : Setup K n) : Prop := ∀ x t, s.gradient x = .ok t → t.shape = [n]

theorem throws_of_vectorGradient (hs : s.Shaped) (h : s.vectorGradient x = .error e) :
    s.Throws e := by
  cases hg : s.gradient x with
  | error e' =>
    simp only [vectorGradient, hg, bind, Except.bind] at h
    cases h
    exact .inr ⟨x, hg⟩
  | ok t =>
    obtain ⟨u, hu⟩ := vectorGradient_of_shape hg (hs x t hg)
    rw [h] at hu
    cases hu

/-- A line fails where one of the functions does. -/
theorem failsOnly_through (hs : s.Shaped) {P : Fault K → Prop} (hP : ∀ e, s.Throws e → P e) :
    (Line.through s.objective s.gradient x d).FailsOnly P := by
  constructor
  · intro t
    exact ⟨fun h => hP _ (.inl ⟨_, h⟩)⟩
  · intro t
    constructor
    intro e h
    change ((s.gradient (along x d t)).bind fun value => slopeAlong value d) = .error e at h
    cases hg : s.gradient (along x d t) with
    | error e' =>
      rw [hg] at h
      cases h
      exact hP _ (.inr ⟨_, hg⟩)
    | ok value =>
      obtain ⟨u, hu⟩ := Option.isSome_iff_exists.mp
        ((Tensor.toVector?_isSome value).mpr (hs _ _ hg))
      simp only [hg, Except.bind, slopeAlong, hu] at h
      cases h

end Setup

/-- The strategies that do not refuse to search: a Wolfe search with constants in order, and the
search without derivatives. -/
def Strategy.Standard {K : Type} [Scalar K] (st : Strategy K) : Prop :=
  (∃ w, st = .wolfe w ∧ Wolfe.Ordered w.c1 w.c2) ∨ ∃ b, st = .brent b

theorem Strategy.Standard.reports {K : Type} [Scalar K] {n : ℕ} {st : Strategy K} (h : st.Standard)
    (f : Objective K n) (g : Gradient K n) : st.Reports f g := by
  rcases h with ⟨w, rfl, -⟩ | ⟨b, rfl⟩
  · exact wolfe_reports w f g
  · exact brent_reports b f g

variable {K : Type} [Field K] [LinearOrder K] [SquareRoot K] {n : ℕ}

/-- The faults that a call can end with at `x`. -/
inductive Optimizer.Raises (o : Optimizer K n) (debug : Bool) (x : Vector K n) : Fault K → Prop
  | notConverged : Raises o debug x (.notConverged o.setup.settings.maxIter)
  | gradientMismatch {k : ℕ} {expected actual diff : K}
      (hv : o.setup.settings.verifies debug = true) :
      Raises o debug x (.gradientMismatch k expected actual diff)
  | noBracket {b : Brent.Options K} {expansions : ℤ}
      (hs : o.memory.search.strategy = .brent b) : Raises o debug x (.noBracket expansions)
  | ascentDirection {w : Wolfe.Options K} (hs : o.memory.search.strategy = .wolfe w)
      (ht : o.setup.settings.tiny = 0) (hz : o.setup.vectorGradient x = .ok (zeros n)) :
      Raises o debug x .ascentDirection

variable [IsStrictOrderedRing K]

/-- A check fails with a mismatch, or where the objective does. -/
theorem GradientCheck.failsOnly_exact {P : Fault K → Prop} {f : Objective K n} {o : Options K}
    (hf : ∀ x e, f x = .error e → P e)
    (hm : ∀ k expected actual diff, P (.gradientMismatch k expected actual diff))
    (hs : o.step > 0.0) (u : Vector K n) : FailsOnly P f u.toList o where
  objective h := hf _ _ h
  step h := (not_le.mpr hs h).elim
  quotient {a e} h := by
    have hd : 12.0 * o.step ≠ 0 := by
      rw [gt_iff_lt, decimal_zero] at hs
      exact mul_ne_zero (by norm_num) hs.ne'
    exact (quotient_ne_error hd h).elim
  missing {k} h := by simp at h
  mismatch := hm _ _ _ _

namespace Strategy
variable {s : Setup K n} {x d : Vector K n} {k : ℕ} {hint : Option K} {e : Fault K}

/-- A Wolfe search fails where the functions do, and on a line that does not descend. -/
theorem fault_of_wolfe {w : Wolfe.Options K} (hs : s.Shaped) (hw : Wolfe.Ordered w.c1 w.c2)
    {c : Vector K n} (hc : s.vectorGradient x = .ok c)
    (h : ((wolfe w).search k (.through s.objective s.gradient x d) hint).outcome = .error e) :
    s.Throws e ∨ e = .ascentDirection ∧ 0 ≤ c.get ⬝ᵥ d.get := by
  have hl : (Line.through s.objective s.gradient x d).FailsOnly fun e =>
      s.Throws e ∨ e = .ascentDirection ∧ 0 ≤ c.get ⬝ᵥ d.get :=
    s.failsOnly_through hs fun e => .inl
  refine (Wolfe.failsOnly_search (o := { w with previous := hint }) hl
    (Wolfe.dividesOnly_exact _) (fun hn => (hn hw).elim) ?_).fault h
  intro slope hslope hge
  rw [slope_through hc] at hslope
  cases hslope
  rw [decimal_zero] at hge
  exact .inr ⟨rfl, hge⟩

/-- A Wolfe search that succeeds was made on a line that descends. -/
theorem slope_of_wolfe {w : Wolfe.Options K} {step : Step K} {c : Vector K n}
    (hc : s.vectorGradient x = .ok c)
    (h : ((wolfe w).search k (.through s.objective s.gradient x d) hint).outcome = .ok step) :
    c.get ⬝ᵥ d.get < 0 := by
  obtain ⟨cond, found, es₁, es₂, hf, -, -⟩ := Wolfe.find_of_search (Traced.eq_of_outcome h)
  obtain ⟨trial, es, hstart, -, -⟩ := Wolfe.starts_of_find hf
  have hslope := hstart.slope
  have hdescends := hstart.descends
  rw [slope_through hc] at hslope
  rw [← Except.ok.inj hslope, decimal_zero, not_le] at hdescends
  exact hdescends

/-- The search without derivatives fails where the objective does, and without a bracket. -/
theorem fault_of_brent {b : Brent.Options K} (hs : s.Shaped)
    (h : ((brent b).search k (.through s.objective s.gradient x d) hint).outcome = .error e) :
    s.Throws e ∨ ∃ expansions, e = .noBracket expansions := by
  have hl : (Line.through s.objective s.gradient x d).FailsOnly fun e =>
      s.Throws e ∨ ∃ expansions, e = .noBracket expansions :=
    s.failsOnly_through hs fun e => .inl
  exact (Brent.failsOnly_bracketAndSearch hl.value (.inr ⟨200, rfl⟩)).fault h

end Strategy

namespace Run
variable {s : Setup K n} {v : Bool} {r r' : Run K n} {c : Vector K n} {step : Step K}

/-- Only a gradient of zero gives a direction that does not descend, and then that is zero too. -/
theorem zero_of_steers (hr : r.Steers s) (hc : s.vectorGradient r.x = .ok c)
    (h : 0 ≤ c.get ⬝ᵥ r.u.get) : c = zeros n ∧ r.u.get = 0 := by
  have hg : r.g.get = -c.get := by rw [hr.eq_neg hc, get_neg]
  rcases hr.descends with hd | hu
  · rw [dot_eq, hg, dotProduct_neg, dotProduct_comm] at hd
    linarith
  · rw [hu, hg, dotProduct_neg] at h
    have h0 : c.get = 0 := by
      by_contra hne
      linarith [dot_self_pos hne]
    refine ⟨?_, ?_⟩
    · apply get_injective
      rw [h0, get_zeros]
    · rw [hu, hg, h0, neg_zero]

/-- Where the gradient is zero, a search is made only if `tiny` is zero. -/
theorem tiny_of_zero (hr : r.Steers s) (hc : s.vectorGradient r.x = .ok (zeros n))
    (hz : ¬ abs r.squaredNorm < s.settings.tiny) : s.settings.tiny = 0 := by
  have hnonneg := s.settings.tiny_nonneg
  rw [ge_iff_le, decimal_zero] at hnonneg
  rw [squaredNorm_of_neg (hr.eq_neg hc), get_zeros, dotProduct_zero, abs_eq, abs_zero,
    not_lt] at hz
  exact le_antisymm hz hnonneg

/-- Along the zero direction a search that reports its values comes back with the one it began
with. -/
theorem steady_of_zero (ht : r.Tracks s) (hu : r.u.get = 0) (h : r.Searches s step) :
    (r.moved s step).Steady s := by
  have hx : along r.x r.u step.step = r.x := by
    apply get_injective
    rw [get_along, hu, smul_zero, add_zero]
  have hv := ht.reports h.found
  rw [hx, ht.value] at hv
  have heq : step.value = r.fx := by rw [ht.last, Except.ok.inj hv]
  have hftol := s.settings.ftol_nonneg
  have htiny := s.settings.tiny_nonneg
  rw [ge_iff_le, decimal_zero] at hftol htiny
  change 2.0 * abs (step.value - r.fx) ≤
    s.settings.ftol * (abs step.value + abs r.fx + s.settings.tiny)
  rw [heq, sub_self, abs_eq, abs_zero, mul_zero, abs_eq]
  positivity

/-- A run that goes on has a gradient to divide by: where that is zero, a Wolfe search complains,
and the other search changes nothing. -/
theorem squaredNorm_ne_zero (hs : r.search.strategy.Standard) (ht : r.Tracks s) (hr : r.Steers s)
    (h : r.Searches s step) (hf : ¬ (r.moved s step).Steady s) : r.squaredNorm ≠ 0 := by
  obtain ⟨c, hc, -⟩ := hr.gradient
  intro h0
  have hz : c.get = 0 := by
    rw [squaredNorm_of_neg (hr.eq_neg hc)] at h0
    exact dotProduct_self_eq_zero.mp h0
  have hslope : c.get ⬝ᵥ r.u.get = 0 := by rw [hz, zero_dotProduct]
  rcases hs with ⟨w, hw, -⟩ | ⟨b, hb⟩
  · have hfound : (r.search.strategy.search r.search.searches
        (.through s.objective s.gradient r.x r.u) (some r.fold)).outcome = _ := h.found
    rw [hw] at hfound
    exact (Strategy.slope_of_wolfe hc hfound).ne hslope
  · exact hf (steady_of_zero ht (zero_of_steers hr hc hslope.ge).2 h)

/-- The weight of the last direction can always be divided. -/
theorem weight_of_passes (hs : r.search.strategy.Standard) (ht : r.Tracks s) (hr : r.Steers s)
    (hp : r.Passes s v r') {e : Fault K} :
    quotient (r'.weight s.settings.method) r'.squaredNorm ≠ .error e := by
  obtain ⟨step, u, nfev, hsearch, hf, -, rfl⟩ := eq_of_differentiates hp.differentiates
  have hne : r.squaredNorm ≠ 0 := squaredNorm_ne_zero hs ht hr hsearch hf
  exact quotient_ne_error hne

end Run

namespace Optimizer
variable {o : Optimizer K n} {debug : Bool} {x₀ : Vector K n} {r r' : Run K n} {k : ℕ} {e : Fault K}

/-- An optimizer that was built with a strategy of the registry has one of the two. -/
theorem standard_of_create {f : Option (Objective K n)} {g : Option (Gradient K n)}
    {draft : Except (Fault K) (Draft K)} (h : create .standard f g draft = .ok o) :
    o.memory.search.strategy.Standard := by
  rcases strategy_of_create h with hs | hs
  · refine .inl ⟨.standard, hs, ?_⟩
    simp only [Wolfe.Ordered, Wolfe.Options.standard]
    norm_num
  · exact .inr ⟨.standard, hs⟩

/-- How the search of an iteration can fail. -/
theorem raises_of_search (hg : o.setup.Shaped) (hs : o.memory.search.strategy.Standard)
    (h : o.Reaches debug x₀ k r) (hz : ¬ abs r.squaredNorm < o.setup.settings.tiny)
    (he : (r.searched o.setup).found.outcome = .error e) :
    o.setup.Throws e ∨ o.Raises debug r.x e := by
  have hr := steers_of_reaches h
  obtain ⟨c, hc, -⟩ := hr.gradient
  have hfound : (r.search.strategy.search r.search.searches
    (.through o.setup.objective o.setup.gradient r.x r.u) (some r.fold)).outcome = _ := he
  rw [strategy_of_reaches h] at hfound
  rcases hs with ⟨w, hw, ho⟩ | ⟨b, hb⟩
  · rw [hw] at hfound
    rcases Strategy.fault_of_wolfe hg ho hc hfound with ht | ⟨rfl, hslope⟩
    · exact .inl ht
    · obtain ⟨rfl, -⟩ := Run.zero_of_steers hr hc hslope
      exact .inr (.ascentDirection hw (Run.tiny_of_zero hr hc hz) hc)
  · rw [hb] at hfound
    rcases Strategy.fault_of_brent hg hfound with ht | ⟨expansions, rfl⟩
    · exact .inl ht
    · exact .inr (.noBracket hb)

/-- How an iteration can fail. Neither of the divisions outside of the search does. -/
theorem raises_of_ends (hg : o.setup.Shaped) (hs : o.memory.search.strategy.Standard)
    (h : o.Reaches debug x₀ k r)
    (he : r.Ends o.setup (o.setup.settings.verifies debug) r' (.failed e)) :
    o.setup.Throws e ∨ o.Raises debug r'.x e := by
  cases he with
  | searchFails hz hfound => exact raises_of_search (r := r) hg hs h hz hfound
  | gradientFails hsearch hf hgrad => exact .inl (Setup.throws_of_vectorGradient hg hgrad)
  | checkFails hsearch hf hgrad hv hc =>
    rename_i step u
    have hp : GradientCheck.FailsOnly
        (fun e => o.setup.Throws e ∨ o.Raises debug (r.moved o.setup step).x e) o.setup.objective
        u.toList ⟨o.setup.settings.checkTol, o.setup.settings.checkStep⟩ :=
      GradientCheck.failsOnly_exact (fun x e hx => .inl (.inl ⟨x, hx⟩))
        (fun k a b d => .inr (.gradientMismatch hv)) o.setup.settings.checkStep_pos u
    exact GradientCheck.fault_of_components hp hc
  | testFails hd ht =>
    rw [Run.slopeTest_eq] at ht
    cases ht
  | weightFails hp hw =>
    -- the strategy of a run is that of its optimizer
    have hreports := hs.reports o.setup.objective o.setup.gradient
    rw [← strategy_of_reaches h] at hs
    exact (Run.weight_of_passes hs (tracks_of_reaches hreports h) (steers_of_reaches h) hp hw).elim

/-- A call that starts from a valid point fails because the functions do, or in one of four ways:
its budget is exhausted; gradients are verified, and one is not that of the objective; there is no
bracket for the search without derivatives; or a Wolfe search is made where the gradient is zero,
which a positive `tiny` rules out. There is no division by zero. -/
theorem minimize_raises (o : Optimizer K n) (debug : Bool) (c : Candidate K) (hc : c.Valid n)
    (hs : o.memory.search.strategy.Standard) (hg : o.setup.Shaped) :
    ∃ report, o.minimize debug c = .ok report ∧
      (∀ e, report.outcome = .error e → o.setup.Throws e ∨ o.Raises debug report.point e) ∧
      (¬ o.setup.Throws .divisionByZero → report.outcome ≠ .error .divisionByZero) := by
  obtain ⟨x₀, hx₀, -⟩ := Candidate.toPoint_of_valid hc
  have key : ∀ e, (o.minimizeFrom debug x₀).outcome = .error e →
      o.setup.Throws e ∨ o.Raises debug (o.minimizeFrom debug x₀).point e := by
    intro e he
    rcases cases_of_outcome he with ⟨nfev, events, ha⟩ | rfl | ⟨k, r, r', hr, hends, hpoint⟩
    · left
      cases ha with
      | objective hf => exact .inl ⟨x₀, hf⟩
      | gradient hf hgrad => exact Setup.throws_of_vectorGradient hg hgrad
    · exact .inr .notConverged
    · rw [hpoint]
      exact raises_of_ends hg hs hr hends
  refine ⟨_, minimize_of_toPoint hx₀, key, ?_⟩
  intro hn he
  rcases key _ he with h | h
  · exact hn h
  · cases h

/-- If `tiny` is zero, a Wolfe search is made at the bottom of the bowl too, and complains there. -/
theorem minimize_raises_bowl :
    let s : Settings ℚ := { Settings.exact with tiny := 0.0, tiny_nonneg := le_rfl }
    let o : Optimizer ℚ 2 :=
      ⟨⟨Quadratic.bowl.objective, Quadratic.bowl.gradient, s⟩, .initial (.wolfe .standard)⟩
    (Candidate.ofVector (#v[0, 0] : Vector ℚ 2)).Valid 2 ∧ o.memory.search.strategy.Standard ∧
      o.setup.Shaped ∧
      ∃ report, o.minimize false (.ofVector #v[0, 0]) = .ok report ∧
        report.outcome = .error .ascentDirection ∧ o.Raises false report.point .ascentDirection ∧
        report.outcome ≠ .error .divisionByZero := by
  intro s o
  have hvalid : (Candidate.ofVector (#v[0, 0] : Vector ℚ 2)).Valid 2 := ⟨rfl, rfl⟩
  have hs : o.memory.search.strategy.Standard := .inl ⟨.standard, rfl, by decide +kernel⟩
  have hg : o.setup.Shaped := by
    rintro x t ⟨⟩
    rfl
  have hthrows : ∀ e, ¬ o.setup.Throws e := by
    rintro e (⟨x, hx⟩ | ⟨x, hx⟩)
    · cases hx
    · cases hx
  have hcomplains : ((o.minimizeFrom false #v[0, 0]).exit matches .failed .ascentDirection) = true := by
    decide +kernel
  have hfails : (o.minimizeFrom false #v[0, 0]).outcome = .error .ascentDirection := by
    split at hcomplains
    · rename_i hexit
      rw [Report.outcome, hexit]
    · cases hcomplains
  obtain ⟨report, hm, hraises, hdivision⟩ :=
    minimize_raises o false (.ofVector #v[0, 0]) hvalid hs hg
  obtain rfl := eq_of_minimize (Candidate.toPoint_ofVector _) hm
  exact ⟨hvalid, hs, hg, _, hm, hfails, (hraises _ hfails).resolve_left (hthrows _),
    hdivision (hthrows _)⟩

end Optimizer
end Descent
