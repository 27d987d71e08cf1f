import Mathlib
import Descent.ConjugateGradient.Solve
import Descent.Proofs.Itinerary
import Descent.Proofs.Run.Workspace

/-! What a solution tells of the run of an optimizer, whether it returns or exhausts its budget. -/
namespace Descent
variable {K : Type} [Scalar K] {n : ℕ}

theorem norm_vector_cast {m : ℕ} (h : m = n) (v : Vector K m) : norm (v.cast h) = norm v := by
  subst h
  rfl

theorem norm_ofVector (v : Vector K n) : norm (Tensor.ofVector v).entries = norm v :=
  norm_vector_cast (by simp [Tensor.shape_ofVector, Shape.volume]) v

namespace Run
variable {s : Setup K n} {v : Bool} {r r' : Run K n} {e : Exit K}

theorem converged_of_ends (h : r.Ends s v r' e) (hx : ∀ fault, e ≠ .failed fault) :
    ∃ status, status ≠ .iterationLimit ∧ e = .converged status r'.fmin := by
  cases h with
  | zeroGradient hz => exact ⟨.zeroGradient, by decide, rfl⟩
  | functionTolerance hs hf => exact ⟨.functionTolerance, by decide, rfl⟩
  | gradientTolerance hd ht hg => exact ⟨.gradientTolerance, by decide, rfl⟩
  | searchFails hz hs => exact (hx _ rfl).elim
  | gradientFails hs hf hg => exact (hx _ rfl).elim
  | checkFails hs hf hg hv hc => exact (hx _ rfl).elim
  | testFails hd ht => exact (hx _ rfl).elim
  | weightFails hp hw => exact (hx _ rfl).elim

end Run

omit [Scalar K] in
theorem concludeWith_of_error {E : Type} (tell : Option K → Bool → Traced E (Fault K) (Solution K))
    (left : Option K) {e : Fault K} (he : ∀ i, e ≠ .notConverged i) :
    concludeWith tell left (.error e) = .fail e := by
  unfold concludeWith
  split
  · rename_i hv
    cases hv
  · rename_i i hi
    exact (he i (Except.error.inj hi)).elim
  · rename_i hi
    rw [Except.error.inj hi]

/-- What a solution tells of a run from `x₀` with that report: the functions are evaluated where the
run has come to, and the record consists of the points that the run visits. -/
structure Solution.Tells (r : Solution K) (f : Objective K n) (g : Gradient K n) (draft : Draft K)
    (x₀ : Vector K n) (visits : ℕ → Vector K n → Prop) (report : Report K n) : Prop where
  point : r.x = report.point.toList
  value : f report.point = .ok r.value
  nit : r.nit = report.optimizer.memory.nit
  nfev : r.nfev = report.optimizer.memory.nfev
  njev : r.njev = report.optimizer.memory.njev + 1
  success : r.success = true ↔ ∃ value, report.outcome = .ok value
  status : report.optimizer.memory.status = some r.status
  message : r.message = r.status.message
  limit : r.status = .iterationLimit ↔ r.success = false
  exhausted : r.success = false → (r.nit : ℤ) = draft.maxIter
  gradientNorm : ∃ u : Vector K n, g report.point = .ok (.ofVector u) ∧ r.gradientNorm = norm u
  recorded : draft.history = true →
    ∃ points : List (Vector K n), r.history = points.map Vector.toList ∧
      points.head? = some x₀ ∧ points.getLast? = some report.point ∧
      ∀ k y, points[k]? = some y ↔ visits k y
  unrecorded : draft.history = false → r.history = []

namespace Optimizer
variable {o : Optimizer K n} {debug : Bool} {x₀ : Vector K n} {r₀ : Run K n}

theorem begins_of_minimizeFrom (hx : ∀ e, (o.minimizeFrom debug x₀).exit ≠ .failed e) :
    ∃ r₀, o.Begins x₀ r₀ := by
  rcases begins_or_abandons o x₀ with hb | ⟨nfev, events, e, ha⟩
  · exact hb
  · rw [minimizeFrom_of_abandons debug ha] at hx
    exact (hx e rfl).elim

/-- A run leaves the status of its end. -/
theorem status_of_minimizeFrom (o : Optimizer K n) (debug : Bool) (x₀ : Vector K n) :
    let report := o.minimizeFrom debug x₀
    report.optimizer.memory.status = report.exit.status := by
  intro report
  rcases begins_or_abandons o x₀ with ⟨r₀, hb⟩ | ⟨nfev, events, e, ha⟩
  · obtain ⟨-, hexit, hopt, -⟩ := minimizeFrom_of_begins debug hb
    have hexit : report.exit = _ := hexit
    rw [hexit]
    exact congrArg (·.memory.status) hopt
  · have hreport : report = o.abandon x₀ nfev events e := minimizeFrom_of_abandons debug ha
    rw [hreport]
    rfl

/-- A budget that is exhausted leaves its value. -/
theorem value_of_minimizeFrom {value : K} (h : (o.minimizeFrom debug x₀).exit = .exhausted value) :
    (o.minimizeFrom debug x₀).optimizer.memory.fmin = some value := by
  obtain ⟨r₀, hb⟩ := begins_of_minimizeFrom (fun e he => by cases h.symm.trans he)
  obtain ⟨-, hexit, hopt, -⟩ := minimizeFrom_of_begins debug hb
  rw [hexit] at h
  rw [hopt, value_of_finish hb (.inr h)]
  rfl

/-- A run that ends without a fault has passed a test, or has used up its iterations. -/
theorem exit_of_finish (hb : o.Begins x₀ r₀) (hx : ∀ e, (o.finish debug r₀).exit ≠ .failed e) :
    (∃ status, status ≠ .iterationLimit ∧
        (o.finish debug r₀).exit = .converged status (o.finish debug r₀).run.fmin) ∨
      (o.finish debug r₀).exit = .exhausted (o.finish debug r₀).run.fmin ∧
        (o.finish debug r₀).run.nit = o.setup.settings.maxIter := by
  rcases finish_cases debug hb with ⟨k, r, -, he⟩ | ⟨-, hrun, hexit⟩
  · exact .inl (Run.converged_of_ends he hx)
  · exact .inr ⟨hexit, by rw [hrun]⟩

/-- With a status there is a solution to be told. -/
theorem tell_of_status {x : Vector K n} {u : Vector K n}
    (hg : o.setup.gradient x = .ok (.ofVector u)) {status : Status}
    (hs : o.memory.status = some status) (value : K) (success : Bool) :
    o.tell x (some value) success = ⟨.ok {
      x := x.toList, value, nit := o.memory.nit, success, status, gradientNorm := norm u
      nfev := o.memory.nfev, njev := o.memory.njev + 1
      history := (o.memory.history.map fun h => h.iterates.toList.map (·.toList)).getD [] },
      [.gradient x]⟩ := by
  unfold tell
  rw [hg, Traced.bind_ok rfl, hs, norm_ofVector]
  rfl

/-- Without a status there is none, and where there is no value either that is missed first. -/
theorem tell_of_no_status {x : Vector K n} {t : Tensor K} (hg : o.setup.gradient x = .ok t)
    (hs : o.memory.status = none) (value : Option K) (success : Bool) :
    (o.tell x value success).outcome =
      .error (if value.isSome then .statusMissing else .valueMissing) := by
  unfold tell
  rw [hg, Traced.bind_ok rfl, hs]
  cases value <;> rfl

theorem setup_minimizeFrom (o : Optimizer K n) (debug : Bool) (x₀ : Vector K n) :
    (o.minimizeFrom debug x₀).optimizer.setup = o.setup := by
  rcases begins_or_abandons o x₀ with ⟨r₀, hb⟩ | ⟨nfev, events, e, ha⟩
  · rw [(minimizeFrom_of_begins debug hb).2.2.1]
  · rw [minimizeFrom_of_abandons debug ha]
    rfl

/-- A run that fails is told as its fault. -/
theorem outcome_solve_of_failed {e : Fault K} (h : (o.minimizeFrom debug x₀).exit = .failed e)
    (he : ∀ i, e ≠ .notConverged i) : (o.solve debug x₀).outcome = .error e := by
  unfold solve Report.conclude
  dsimp only
  rw [Report.outcome_eq, h]
  dsimp only [Exit.outcome]
  rw [concludeWith_of_error _ _ he]
  rfl

/-- A function that fails as an exhausted budget does leaves no status to be told. -/
theorem outcome_solve_of_notConverged {i : ℤ} {t : Tensor K}
    (h : (o.minimizeFrom debug x₀).exit = .failed (.notConverged i))
    (hg : o.setup.gradient (o.minimizeFrom debug x₀).point = .ok t) :
    (o.solve debug x₀).outcome =
      .error (if (o.minimizeFrom debug x₀).optimizer.memory.fmin.isSome then .statusMissing
        else .valueMissing) := by
  have hstatus : (o.minimizeFrom debug x₀).optimizer.memory.status = none := by
    rw [status_of_minimizeFrom, h]
    rfl
  rw [← setup_minimizeFrom o debug x₀] at hg
  unfold solve Report.conclude
  dsimp only
  rw [Report.outcome_eq, h]
  dsimp only [Exit.outcome, concludeWith]
  exact tell_of_no_status hg hstatus _ _

section
variable
  (hs : (∃ w, o.memory.search.strategy = .wolfe w) ∨ ∃ b, o.memory.search.strategy = .brent b)
  (hb : o.Begins x₀ r₀)
include hs hb

/-- The gradients that a run without a fault has counted are those it called for. -/
theorem njev_of_finish (hx : ∀ e, (o.finish debug r₀).exit ≠ .failed e) :
    (o.minimizeFrom debug x₀).optimizer.memory.njev =
      (o.minimizeFrom debug x₀).events.countP Event.isGradient := by
  obtain ⟨-, -, hopt, hevents⟩ := minimizeFrom_of_begins debug hb
  rw [hopt, hevents, countP_isGradient_start]
  have hcounts := counts_finish debug hb (Strategy.counts_of_standard hs _ _)
  rw [← (counts_of_begins hb).2]
  exact (hcounts.exact fun e h => hx e (Option.some.inj h)).2

/-- What is told of a run that has begun and ends without a fault, given its status and whether it
returns. -/
theorem tells_tell (hx : ∀ e, (o.finish debug r₀).exit ≠ .failed e) {u : Vector K n}
    (hu : o.setup.gradient (o.finish debug r₀).run.x = .ok (.ofVector u)) {status : Status}
    (success : Bool) (hstatus : (o.finish debug r₀).exit.status = some status)
    (hsuccess : success = true ↔ ∃ value, (o.minimizeFrom debug x₀).outcome = .ok value)
    (hlimit : status = .iterationLimit ↔ success = false)
    (hnit : success = false → (o.finish debug r₀).run.nit = o.setup.settings.maxIter) :
    let report := o.minimizeFrom debug x₀
    ∃ r, report.optimizer.tell report.point (some (o.finish debug r₀).run.fmin) success =
        ⟨.ok r, [.gradient report.point]⟩ ∧
      r.Tells o.setup.objective o.setup.gradient o.setup.settings.toDraft x₀ (o.Visits debug x₀)
        report := by
  intro report
  obtain ⟨hpoint, -, hopt, -⟩ := minimizeFrom_of_begins debug hb
  have hu' : report.optimizer.setup.gradient report.point = .ok (.ofVector u) := by
    rw [setup_minimizeFrom, hpoint]
    exact hu
  have hmemory : report.optimizer.memory = .ofRun (o.finish debug r₀).run
      (o.finish debug r₀).exit.status := congrArg Optimizer.memory hopt
  have hstatus : report.optimizer.memory.status = some status := by
    rw [hmemory]
    exact hstatus
  refine ⟨_, tell_of_status hu' hstatus _ _, ?_⟩
  have hagrees := finish_agrees debug hb (Strategy.reports_of_standard hs _ _)
  exact {
    point := rfl
    value := hpoint ▸ hagrees.value
    nit := rfl
    nfev := rfl
    njev := rfl
    success := hsuccess
    status := hstatus
    message := rfl
    limit := hlimit
    exhausted := by
      intro h
      have hn := hnit h
      rw [hmemory]
      exact congrArg Int.ofNat hn
    gradientNorm := ⟨u, hpoint ▸ hu, rfl⟩
    recorded := by
      intro ht
      obtain ⟨h, hh, hpoints⟩ := points_of_finish hs hb hx ht
      refine ⟨h.iterates.toList, ?_, hpoint ▸ hpoints⟩
      rw [hmemory]
      dsimp only [Memory.ofRun]
      rw [hh]
      rfl
    unrecorded := by
      intro ht
      rw [hmemory]
      dsimp only [Memory.ofRun]
      rw [finish_unrecorded hb ht debug]
      rfl }

/-- A run that ends without a fault is told as it is, and the gradients that are counted are those
called for, that at the end included. -/
theorem tells_solve (hx : ∀ e, (o.finish debug r₀).exit ≠ .failed e)
    {u : Vector K n} (hu : o.setup.gradient (o.finish debug r₀).run.x = .ok (.ofVector u)) :
    let report := o.minimizeFrom debug x₀
    ∃ r, o.solve debug x₀ = ⟨.ok r, report.events ++ [.gradient report.point]⟩ ∧
      r.njev = (report.events ++ [Event.gradient report.point]).countP Event.isGradient ∧
      r.Tells o.setup.objective o.setup.gradient o.setup.settings.toDraft x₀ (o.Visits debug x₀)
        report := by
  intro report
  have hexit : report.exit = _ := (minimizeFrom_of_begins debug hb).2.1
  have hcount : ∀ r : Solution K, r.njev = report.optimizer.memory.njev + 1 →
      r.njev = (report.events ++ [Event.gradient report.point]).countP Event.isGradient := by
    intro r hr
    rw [hr, njev_of_finish hs hb hx, List.countP_append]
    rfl
  have hsolve : o.solve debug x₀ = ⟨report.conclude.outcome, report.events ++ report.conclude.events⟩ :=
    rfl
  have houtcome : report.outcome = _ := Report.outcome_eq report
  rcases exit_of_finish hb hx with ⟨status, hne, hf⟩ | ⟨hf, hnit⟩
  · rw [hf] at hexit
    rw [hexit] at houtcome
    obtain ⟨r, hr, htells⟩ := tells_tell hs hb hx hu true (by rw [hf]; rfl)
      (iff_of_true rfl ⟨_, houtcome⟩) (iff_of_false hne (by decide)) (by simp)
    refine ⟨r, ?_, hcount r htells.njev, htells⟩
    rw [hsolve, Report.conclude, houtcome]
    dsimp only [Exit.outcome, concludeWith]
    rw [hr]
  · rw [hf] at hexit
    rw [hexit] at houtcome
    have hraises : ¬ ∃ value, report.outcome = .ok value := by
      rintro ⟨value, hv⟩
      rw [houtcome] at hv
      cases hv
    obtain ⟨r, hr, htells⟩ := tells_tell hs hb hx hu false (by rw [hf]; rfl)
      (iff_of_false Bool.false_ne_true hraises) (iff_of_true rfl rfl) (fun _ => hnit)
    refine ⟨r, ?_, hcount r htells.njev, htells⟩
    rw [hsolve, Report.conclude, houtcome]
    dsimp only [Exit.outcome, concludeWith]
    rw [value_of_minimizeFrom hexit, hr]

end

end Optimizer

end Descent
