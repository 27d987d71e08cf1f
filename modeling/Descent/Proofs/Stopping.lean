import Mathlib
import Descent.Proofs.Agreement

/-! Why a run stops: at the first of its tests that holds, where the tests are about the values and
gradients of the functions at the points of the run. -/
namespace Descent
variable {K : Type} [Scalar K] {n : Nat}

/-- The place of a test among those of its iteration. -/
def Status.place : Status → Nat
  | zeroGradient => 0
  | functionTolerance => 1
  | gradientTolerance => 2
  | iterationLimit => 3

namespace Run
variable {s : Setup K n} {v : Bool} {r r' : Run K n}

/-- Before an iteration both values are that of the objective at the point, and `g` is the negative
of the gradient there. -/
structure Tracks (s : Setup K n) (r : Run K n) : Prop where
  value : s.objective r.x = .ok r.fmin
  last : r.fx = r.fmin
  gradient : ∃ c, s.vectorGradient r.x = .ok c ∧ r.g = -c
  reports : r.search.strategy.Reports s.objective s.gradient

theorem tracks_nit (h : r.Tracks s) (m : Nat) : { r with nit := m }.Tracks s :=
  ⟨h.value, h.last, h.gradient, h.reports⟩

theorem tracks_of_completes (hr : r.Tracks s) (h : r.Completes s v r') : r'.Tracks s := by
  have hlast := last_of_completes h
  cases h with
  | intro hp hw =>
    rename_i r' gamma
    obtain ⟨step, u, nfev, hs, -, hg, rfl⟩ := eq_of_differentiates hp.differentiates
    have ha := turned_alike { (r.moved s step).differentiated u with nfev } gamma
    have hstrategy : (r.searched s).search.strategy = r.search.strategy := strategy_searched
    refine ⟨?_, hlast, ⟨u, ?_, ?_⟩, ?_⟩
    · rw [ha.x, ha.fmin]
      exact hr.reports hs.found
    · rw [ha.x]
      exact hg
    · unfold turned
      split <;> rfl
    · rw [ha.strategy]
      exact hstrategy ▸ hr.reports

end Run

namespace Optimizer

/-- The test with that status holds in iteration `k`: for the gradient at the point where the
iteration begins, for the values there and where its search ends, or for gradient and value where
its search ends. -/
inductive Meets (o : Optimizer K n) (debug : Bool) (x₀ : Vector K n) (k : Nat) : Status → Prop
  | zeroGradient {x c : Vector K n} (hx : o.Visits debug x₀ k x)
      (hc : o.setup.vectorGradient x = .ok c)
      (ht : abs (dot (-c) (-c)) < o.setup.settings.tiny) : Meets o debug x₀ k .zeroGradient
  | functionTolerance {x x' : Vector K n} {w w' : K} (hx : o.Visits debug x₀ k x)
      (hx' : o.Visits debug x₀ (k + 1) x') (hw : o.setup.objective x = .ok w)
      (hw' : o.setup.objective x' = .ok w')
      (ht : 2.0 * abs (w' - w) ≤
        o.setup.settings.ftol * (abs w' + abs w + o.setup.settings.tiny)) :
      Meets o debug x₀ k .functionTolerance
  | gradientTolerance {x' c' : Vector K n} {w' test : K} (hx' : o.Visits debug x₀ (k + 1) x')
      (hc' : o.setup.vectorGradient x' = .ok c') (hw' : o.setup.objective x' = .ok w')
      (hq : quotient (Run.scaledGradient x' c') (larger w' 1.0) = .ok test)
      (ht : test < o.setup.settings.gtol) : Meets o debug x₀ k .gradientTolerance

/-- The test with that status holds in iteration `k`, and none before it holds. -/
structure MeetsFirst (o : Optimizer K n) (debug : Bool) (x₀ : Vector K n) (k : Nat)
    (status : Status) : Prop where
  meets : o.Meets debug x₀ k status
  first : ∀ j st, j < k ∨ j = k ∧ st.place < status.place → ¬ o.Meets debug x₀ j st

/-- The run comes to iteration `k`, which ends with that fault. -/
def Faults (o : Optimizer K n) (debug : Bool) (x₀ : Vector K n) (k : Nat) (e : Fault K) : Prop :=
  ∃ r, o.Reaches debug x₀ k r ∧
    (Run.iterate o.setup (o.setup.settings.verifies debug) k r).exit = some (.failed e)

variable {o : Optimizer K n} {debug : Bool} {x₀ : Vector K n} {k : Nat} {r r' : Run K n}
  {status : Status}

theorem tracks_of_reaches
    (hs : o.memory.search.strategy.Reports o.setup.objective o.setup.gradient)
    (h : o.Reaches debug x₀ k r) : r.Tracks o.setup := by
  obtain ⟨r₀, hb, -, hl, rfl⟩ := h
  have h0 : r₀.Tracks o.setup := by
    cases hb with
    | intro hf hg => exact ⟨hf, rfl, ⟨_, hg, rfl⟩, hs⟩
  refine Run.tracks_nit (Run.live_keeps (I := fun _ r => r.Tracks o.setup) h0 ?_ hl) k
  intro k r r' hr hc
  exact Run.tracks_of_completes (Run.tracks_nit hr k) hc

section
variable (h : o.Reaches debug x₀ k r)
include h

/-- The point of the next number is where the search of the iteration ends. -/
theorem visits_moved {step : Step K} (hs : r.Searches o.setup step) :
    o.Visits debug x₀ (k + 1) (r.moved o.setup step).x :=
  .moved h hs

variable (hr : r.Tracks o.setup)
include hr

theorem meets_zeroGradient_iff :
    o.Meets debug x₀ k .zeroGradient ↔ abs r.squaredNorm < o.setup.settings.tiny := by
  obtain ⟨c, hc, hg⟩ := hr.gradient
  rw [Run.squaredNorm, hg]
  constructor
  · intro hm
    cases hm with
    | zeroGradient hx hc' ht =>
      rw [visits_unique hx (visits_of_reaches h), hc] at hc'
      cases hc'
      exact ht
  · exact .zeroGradient (visits_of_reaches h) hc

variable {step : Step K} (hs : r.Searches o.setup step)
include hs

theorem meets_functionTolerance_iff :
    o.Meets debug x₀ k .functionTolerance ↔ (r.moved o.setup step).Steady o.setup := by
  have hv := hr.value
  have hv' : o.setup.objective (r.moved o.setup step).x = .ok step.value := hr.reports hs.found
  unfold Run.Steady
  change _ ↔ 2.0 * abs (step.value - r.fx) ≤
    o.setup.settings.ftol * (abs step.value + abs r.fx + o.setup.settings.tiny)
  rw [hr.last]
  constructor
  · intro hm
    cases hm with
    | functionTolerance hx hx' hw hw' ht =>
      rw [visits_unique hx (visits_of_reaches h), hv] at hw
      rw [visits_unique hx' (visits_moved h hs), hv'] at hw'
      cases hw
      cases hw'
      exact ht
  · exact .functionTolerance (visits_of_reaches h) (visits_moved h hs) hv hv'

theorem meets_gradientTolerance_iff {u : Vector K n}
    (hg : o.setup.vectorGradient (r.moved o.setup step).x = .ok u) :
    o.Meets debug x₀ k .gradientTolerance ↔
      ∃ test, ((r.moved o.setup step).differentiated u).slopeTest = .ok test ∧
        test < o.setup.settings.gtol := by
  have hv' : o.setup.objective (r.moved o.setup step).x = .ok step.value := hr.reports hs.found
  constructor
  · intro hm
    cases hm with
    | gradientTolerance hx' hc' hw' hq ht =>
      rw [visits_unique hx' (visits_moved h hs)] at hc' hw' hq
      rw [hg] at hc'
      rw [hv'] at hw'
      cases hc'
      cases hw'
      exact ⟨_, hq, ht⟩
  · rintro ⟨test, hq, ht⟩
    exact .gradientTolerance (visits_moved h hs) hg hv' hq ht

omit hs in
/-- An iteration that ends with a status ends at the first of its tests that holds. -/
theorem meets_of_ends {value : K}
    (he : r.Ends o.setup (o.setup.settings.verifies debug) r' (.converged status value)) :
    o.Meets debug x₀ k status ∧ (∀ st, st.place < status.place → ¬ o.Meets debug x₀ k st) ∧
      o.Visits debug x₀ (if status = .zeroGradient then k else k + 1) r'.x ∧ r'.nit = k := by
  have hnit := nit_of_reaches h
  cases he with
  | zeroGradient hz =>
    refine ⟨(meets_zeroGradient_iff h hr).mpr hz, ?_, visits_of_reaches h, hnit⟩
    intro st hst
    cases hst
  | functionTolerance hs hf =>
    refine ⟨(meets_functionTolerance_iff h hr hs).mpr hf, ?_, visits_moved h hs, hnit⟩
    intro st hst hm
    cases st with
    | zeroGradient => exact hs.nonzero ((meets_zeroGradient_iff h hr).mp hm)
    | functionTolerance => exact lt_irrefl _ hst
    | gradientTolerance => exact absurd hst (by decide)
    | iterationLimit => cases hm
  | gradientTolerance hd ht hg =>
    obtain ⟨step, u, nfev, hs, hf, hu, rfl⟩ := Run.eq_of_differentiates hd
    refine ⟨(meets_gradientTolerance_iff h hr hs hu).mpr ⟨_, ht, hg⟩, ?_, visits_moved h hs, hnit⟩
    intro st hst hm
    cases st with
    | zeroGradient => exact hs.nonzero ((meets_zeroGradient_iff h hr).mp hm)
    | functionTolerance => exact hf ((meets_functionTolerance_iff h hr hs).mp hm)
    | gradientTolerance => exact lt_irrefl _ hst
    | iterationLimit => cases hm

omit hs in
/-- In an iteration that does not end the run no test holds. -/
theorem not_meets_of_completes
    (hc : r.Completes o.setup (o.setup.settings.verifies debug) r') (status : Status) :
    ¬ o.Meets debug x₀ k status := by
  cases hc with
  | intro hp hw =>
    obtain ⟨test, ht, hg⟩ := hp.test
    obtain ⟨step, u, nfev, hs, hf, hu, rfl⟩ := Run.eq_of_differentiates hp.differentiates
    intro hm
    cases status with
    | zeroGradient => exact hs.nonzero ((meets_zeroGradient_iff h hr).mp hm)
    | functionTolerance => exact hf ((meets_functionTolerance_iff h hr hs).mp hm)
    | gradientTolerance =>
      obtain ⟨test', ht', hg'⟩ := (meets_gradientTolerance_iff h hr hs hu).mp hm
      obtain rfl : test' = test := Except.ok.inj (ht'.symm.trans ht)
      exact hg hg'
    | iterationLimit => cases hm

end

section
variable {r₀ : Run K n}
  (hs : o.memory.search.strategy.Reports o.setup.objective o.setup.gradient)
  (hb : o.Begins x₀ r₀)
include hs hb

/-- As long as the run goes on, no test has held. -/
theorem not_meets_of_live (hk : k ≤ o.setup.settings.maxIter)
    (hl : Run.Live o.setup (o.setup.settings.verifies debug) r₀ k) {j : Nat} (hj : j < k)
    (status : Status) : ¬ o.Meets debug x₀ j status := by
  have hr : o.Reaches debug x₀ j _ := ⟨r₀, hb, by omega, hl.mono hj.le, rfl⟩
  exact not_meets_of_completes hr (tracks_of_reaches hs hr)
    (Run.completes_of_live (hl.mono hj)) status

theorem meetsFirst_of_finish {value : K}
    (he : (o.finish debug r₀).exit = .converged status value) :
    ∃ k < o.setup.settings.maxIter, (o.finish debug r₀).run.nit = k ∧
      o.MeetsFirst debug x₀ k status ∧
      o.Visits debug x₀ (if status = .zeroGradient then k else k + 1)
        (o.finish debug r₀).run.x := by
  rcases finish_cases debug hb with ⟨k, r, hr, hends⟩ | ⟨-, -, hx⟩
  · rw [he] at hends
    obtain ⟨hmeets, hfirst, hvisits, hnit⟩ := meets_of_ends hr (tracks_of_reaches hs hr) hends
    obtain ⟨r₁, hb₁, hk, hl, -⟩ := hr
    rw [← begins_unique hb hb₁] at hl
    refine ⟨k, hk, hnit, ⟨hmeets, ?_⟩, hvisits⟩
    rintro j st (hj | ⟨rfl, hst⟩)
    · exact not_meets_of_live hs hb hk.le hl hj st
    · exact hfirst st hst
  · rw [he] at hx
    cases hx

/-- The budget is exhausted if and only if no iteration fails and no test holds. -/
theorem exhausted_iff : (∃ value, (o.finish debug r₀).exit = .exhausted value) ↔
    ∀ k < o.setup.settings.maxIter, (∀ e, ¬ o.Faults debug x₀ k e) ∧
      ∀ status, ¬ o.Meets debug x₀ k status := by
  constructor
  · rintro ⟨value, he⟩ k hk
    rcases finish_cases debug hb with ⟨j, r, -, hends⟩ | ⟨hl, -, -⟩
    · rw [he] at hends
      exact (Run.not_ends_exhausted hends).elim
    refine ⟨?_, not_meets_of_live hs hb le_rfl hl hk⟩
    rintro e ⟨r, ⟨r₁, hb₁, -, -, rfl⟩, hf⟩
    rw [← begins_unique hb hb₁] at hf
    have hnone := hl k hk
    change (Run.iterate o.setup (o.setup.settings.verifies debug) k
      (Run.after o.setup (o.setup.settings.verifies debug) r₀ k)).exit = _ at hf
    rw [hf] at hnone
    cases hnone
  · intro h
    rcases finish_ends debug hb with ⟨k, r, hr, hx, -⟩ | ⟨-, -, hx⟩
    · obtain ⟨r₁, -, hk, -, -⟩ := id hr
      cases he : (o.finish debug r₀).exit with
      | converged status value =>
        obtain ⟨j, hj, -, hfirst, -⟩ := meetsFirst_of_finish hs hb he
        exact ((h j hj).2 status hfirst.meets).elim
      | exhausted value => exact ⟨value, rfl⟩
      | failed e =>
        rw [he] at hx
        exact ((h k hk).1 e ⟨r, hr, hx⟩).elim
    · exact ⟨_, hx⟩

end

/-- A run that returns has stopped at the first of its tests that holds, and tells so: by its status,
by the number of the iteration and by the point it leaves. Its budget is exhausted if and only if all
iterations end without a fault and without a test that holds. Any other fault leaves no status. -/
theorem minimize_stops (o : Optimizer K n) (debug : Bool) (c : Candidate K) {x₀ : Vector K n}
    (hs : (∃ w, o.memory.search.strategy = .wolfe w) ∨ (∃ b, o.memory.search.strategy = .brent b) ∨
      o.memory.search.strategy.Reports o.setup.objective o.setup.gradient)
    (hc : c.toPoint n = .ok x₀) :
    ∃ report, o.minimize debug c = .ok report ∧
      (∀ value, report.outcome = .ok value → ∃ k < o.setup.settings.maxIter, ∃ status,
        report.optimizer.memory.status = some status ∧ report.optimizer.memory.nit = k ∧
        o.MeetsFirst debug x₀ k status ∧
        o.Visits debug x₀ (if status = .zeroGradient then k else k + 1) report.point) ∧
      ((∃ value, report.exit = .exhausted value) ↔ (∃ r₀, o.Begins x₀ r₀) ∧
        ∀ k < o.setup.settings.maxIter, (∀ e, ¬ o.Faults debug x₀ k e) ∧
          ∀ status, ¬ o.Meets debug x₀ k status) ∧
      (∀ value, report.exit = .exhausted value →
        report.outcome = .error (.notConverged o.setup.settings.maxIter) ∧
        report.optimizer.memory.nit = o.setup.settings.maxIter ∧
        report.optimizer.memory.status = some .iterationLimit) ∧
      ∀ e, report.outcome = .error e → (∀ value, report.exit ≠ .exhausted value) →
        report.optimizer.memory.status = none := by
  refine ⟨_, minimize_of_toPoint hc, ?_⟩
  rcases begins_or_abandons o x₀ with ⟨r₀, hb⟩ | ⟨nfev, events, e, ha⟩
  · obtain ⟨hpoint, hexit, hopt, -⟩ := minimizeFrom_of_begins debug hb
    have hr : o.memory.search.strategy.Reports o.setup.objective o.setup.gradient := by
      rcases or_assoc.mpr hs with hs | hr
      · exact Strategy.reports_of_standard hs _ _
      · exact hr
    simp only [Report.outcome, hpoint, hexit, hopt]
    refine ⟨?_, ?_, ?_, ?_⟩
    · intro value hv
      split at hv
      · rename_i status value' he
        obtain ⟨k, hk, hnit, hfirst, hvisits⟩ := meetsFirst_of_finish hr hb he
        exact ⟨k, hk, status, by rw [he]; rfl, hnit, hfirst, hvisits⟩
      · cases hv
      · cases hv
    · rw [exhausted_iff hr hb]
      exact ⟨fun h => ⟨⟨r₀, hb⟩, h⟩, fun h => h.2⟩
    · intro value he
      rcases finish_cases debug hb with ⟨k, r, -, hends⟩ | ⟨-, hrun, -⟩
      · rw [he] at hends
        exact (Run.not_ends_exhausted hends).elim
      · rw [he, hrun]
        exact ⟨rfl, rfl, rfl⟩
    · intro e hv hx
      split at hv
      · cases hv
      · exact (hx _ ‹_›).elim
      · rename_i e' he
        rw [he]
        rfl
  · rw [minimizeFrom_of_abandons debug ha]
    refine ⟨?_, ?_, ?_, ?_⟩
    · rintro value ⟨⟩
    · constructor
      · rintro ⟨value, ⟨⟩⟩
      · rintro ⟨⟨r₀, hb⟩, -⟩
        exact (not_begins_of_abandons ha hb).elim
    · rintro value ⟨⟩
    · intro e _ _
      rfl

theorem minimize_stops_bowl :
    let o : Optimizer ℚ 2 := .ofQuadratic .bowl (.wolfe .standard)
    (o.minimizeFrom false #v[3, 2]).optimizer.memory.status = some .gradientTolerance ∧
      o.MeetsFirst false #v[3, 2] 1 .gradientTolerance ∧
      o.Visits false #v[3, 2] 2 (o.minimizeFrom false #v[3, 2]).point := by
  intro o
  have hstatus : (o.minimizeFrom false #v[3, 2]).optimizer.memory.status =
      some .gradientTolerance := by decide +kernel
  have hnit : (o.minimizeFrom false #v[3, 2]).optimizer.memory.nit = 1 := by decide +kernel
  have hreturns : (o.minimizeFrom false #v[3, 2]).outcome.toOption.isSome := by decide +kernel
  obtain ⟨report, hm, hstops, -⟩ := minimize_stops o false (.ofVector #v[3, 2]) (.inl ⟨_, rfl⟩)
    (Candidate.toPoint_ofVector _)
  obtain rfl := eq_of_minimize (Candidate.toPoint_ofVector _) hm
  cases hv : (o.minimizeFrom false #v[3, 2]).outcome with
  | error e =>
    rw [hv] at hreturns
    cases hreturns
  | ok value =>
    obtain ⟨k, -, status, hs, hk, hfirst, hvisits⟩ := hstops value hv
    rw [hstatus, Option.some.injEq] at hs
    rw [hnit] at hk
    subst hs hk
    exact ⟨hstatus, hfirst, hvisits⟩

end Optimizer
end Descent
