import Mathlib
import Descent.Proofs.Quadratic
import Descent.Proofs.Run.Counting

/-! What a run spends: its counts are those of its calls, and they are made up of the first value and
gradient, the searches, and the gradients after the searches with their checks. -/
namespace Descent
variable {K : Type} [Scalar K] {n : Nat}

/-- The gradients that follow a search, in a run that stops in iteration `k` with that status. -/
def Status.gradients (k : Nat) : Status → Nat
  | zeroGradient => k
  | functionTolerance => k
  | gradientTolerance => k + 1
  | iterationLimit => k

/-- The searches of a run that stops in iteration `k` with that status. -/
def Status.searches (k : Nat) : Status → Nat
  | zeroGradient => k
  | functionTolerance => k + 1
  | gradientTolerance => k + 1
  | iterationLimit => k

namespace Run
variable {s : Setup K n} {v : Bool} {r₀ r r' : Run K n} {m : Nat} {steps : List (Step K)}
  {step : Step K}

/-- What a run has spent since it was `r₀`: searches that ended with these steps, and `m` gradients
after searches, with their checks. Its history has grown by the steps. -/
structure Accounts (v : Bool) (r r₀ : Run K n) (m : Nat) (steps : List (Step K)) : Prop where
  nfev : r.nfev = r₀.nfev + (steps.map (·.nfev)).sum + if v then 4 * n * m else 0
  njev : r.njev = r₀.njev + m + (steps.map (·.njev)).sum
  history : ∀ {h₀}, r₀.history = some h₀ →
    ∃ h, r.history = some h ∧ h.size = h₀.size + steps.length

omit [Scalar K] in
theorem accounts_start (v : Bool) (r : Run K n) : r.Accounts v r 0 [] := by
  refine ⟨?_, rfl, fun h => ⟨_, h, rfl⟩⟩
  split <;> rfl

omit [Scalar K] in
theorem accounts_nit (h : r.Accounts v r₀ m steps) (k : Nat) :
    { r with nit := k }.Accounts v r₀ m steps :=
  ⟨h.nfev, h.njev, h.history⟩

theorem accounts_moved (h : r.Accounts v r₀ m steps) (step : Step K) :
    (r.moved s step).Accounts v r₀ m (steps ++ [step]) := by
  have hnfev := h.nfev
  have hnjev := h.njev
  refine ⟨?_, ?_, ?_⟩
  · simp only [moved, List.map_append, List.sum_append, List.map_singleton, List.sum_singleton]
    omega
  · simp only [moved, List.map_append, List.sum_append, List.map_singleton, List.sum_singleton]
    omega
  · intro h₀ h0
    obtain ⟨hist, hh, hsize⟩ := h.history h0
    refine ⟨_, by rw [moved, hh]; rfl, ?_⟩
    simp only [History.size] at hsize
    simp only [History.size, History.push, Array.size_push, hsize, List.length_append,
      List.length_singleton, Nat.add_assoc]

/-- A check that succeeds takes four values for each component. -/
theorem checked_of_none (h : (r.checked s v).exit = none) :
    (r.checked s v).run = { r with nfev := r.nfev + if v then 4 * n else 0 } := by
  cases v with
  | false => rfl
  | true =>
    unfold checked at h ⊢
    rw [if_pos rfl] at h ⊢
    unfold verify at h ⊢
    dsimp only at h ⊢
    split at h
    · cases h
    · rename_i hc
      dsimp only [proceed]
      rw [GradientCheck.evals_of_run hc, if_pos rfl]

/-- A gradient after a search, with its check. -/
theorem accounts_differentiates (h : r.Accounts v r₀ m steps) (hd : r.Differentiates s v r') :
    ∃ step, r.Searches s step ∧ r'.Accounts v r₀ (m + 1) (steps ++ [step]) := by
  cases hd with
  | intro hs hf hg hc =>
    rename_i step u
    have hm := accounts_moved (s := s) h step
    have hnfev := hm.nfev
    have hnjev := hm.njev
    refine ⟨step, hs, ?_⟩
    rw [checked_of_none hc]
    refine ⟨?_, ?_, hm.history⟩
    · dsimp only [differentiated]
      rw [hnfev]
      split
      · rw [Nat.mul_add_one]
        omega
      · rfl
    · dsimp only [differentiated]
      omega

theorem accounts_completes (h : r.Accounts v r₀ m steps) (hc : r.Completes s v r') :
    ∃ step, r.Searches s step ∧ r'.Accounts v r₀ (m + 1) (steps ++ [step]) := by
  cases hc with
  | intro hp hw =>
    obtain ⟨step, hs, ha⟩ := accounts_differentiates h hp.differentiates
    refine ⟨step, hs, ?_⟩
    unfold turned
    split
    · exact ⟨ha.nfev, ha.njev, ha.history⟩
    · exact ⟨ha.nfev, ha.njev, ha.history⟩

end Run

namespace Optimizer
variable {o : Optimizer K n} {debug : Bool} {x₀ : Vector K n} {r₀ r : Run K n} {k : Nat}
  {steps : List (Step K)} {step : Step K}

/-- The first `k` searches of the run from `x₀` end with these steps. -/
structure Lists (o : Optimizer K n) (debug : Bool) (x₀ : Vector K n) (k : Nat)
    (steps : List (Step K)) : Prop where
  length : steps.length = k
  makes : ∀ {j : Nat} {step : Step K}, steps[j]? = some step → ∃ x d, o.Makes debug x₀ j x d step

theorem lists_push (h : o.Lists debug x₀ k steps) (hr : o.Reaches debug x₀ k r)
    (hs : r.Searches o.setup step) : o.Lists debug x₀ (k + 1) (steps ++ [step]) := by
  have hlength := h.length
  constructor
  · simp [hlength]
  · intro j step' hj
    by_cases hjk : j < k
    · rw [List.getElem?_append_left (by omega)] at hj
      exact h.makes hj
    · rw [List.getElem?_append_right (by omega), List.getElem?_singleton] at hj
      split at hj
      · obtain rfl : j = k := by omega
        cases hj
        exact ⟨_, _, r, hr, hs, rfl, rfl⟩
      · cases hj

/-- If there are no more searches than steps, then the steps are all there are. -/
theorem Lists.getElem?_eq_some_iff (h : o.Lists debug x₀ k steps)
    (hlast : ∀ {j r step}, o.Reaches debug x₀ j r → r.Searches o.setup step → j < k) (j : Nat)
    (step : Step K) : steps[j]? = some step ↔ ∃ x d, o.Makes debug x₀ j x d step := by
  refine ⟨h.makes, ?_⟩
  rintro ⟨x, d, r, hr, hs, -, -⟩
  have hj : j < steps.length := h.length ▸ hlast hr hs
  obtain ⟨x', d', r', hr', hs', -, -⟩ := h.makes (List.getElem?_eq_getElem hj)
  rw [reaches_unique hr' hr] at hs'
  rw [List.getElem?_eq_getElem hj, Run.searches_unique hs hs']

section
variable (hb : o.Begins x₀ r₀)
include hb

/-- Each completed iteration makes one search and takes one gradient after it. -/
theorem live_accounts (hk : k ≤ o.setup.settings.maxIter)
    (hl : Run.Live o.setup (o.setup.settings.verifies debug) r₀ k) :
    ∃ steps, o.Lists debug x₀ k steps ∧
      (Run.after o.setup (o.setup.settings.verifies debug) r₀ k).Accounts
        (o.setup.settings.verifies debug) r₀ k steps := by
  induction k with
  | zero => exact ⟨[], ⟨rfl, by simp⟩, Run.accounts_start _ r₀⟩
  | succ k ih =>
    have hl' := hl.mono (Nat.le_succ k)
    obtain ⟨steps, hlists, ha⟩ := ih (by omega) hl'
    have hr : o.Reaches debug x₀ k _ := ⟨r₀, hb, hk, hl', rfl⟩
    obtain ⟨step, hs, ha⟩ := Run.accounts_completes (Run.accounts_nit ha k)
      (Run.completes_of_live hl)
    exact ⟨steps ++ [step], lists_push hlists hr hs, ha⟩

theorem reaches_accounts (hr : o.Reaches debug x₀ k r) :
    ∃ steps, o.Lists debug x₀ k steps ∧
      r.Accounts (o.setup.settings.verifies debug) r₀ k steps := by
  obtain ⟨r₁, hb₁, hk, hl, rfl⟩ := hr
  rw [← begins_unique hb hb₁] at hl ⊢
  obtain ⟨steps, hlists, ha⟩ := live_accounts hb hk.le hl
  exact ⟨steps, hlists, Run.accounts_nit ha k⟩

/-- A run that ends without a fault has spent what its status tells. -/
theorem finish_accounts (hx : ∀ e, (o.finish debug r₀).exit ≠ .failed e) :
    ∃ status steps, (o.finish debug r₀).exit.status = some status ∧
      (∀ k step, steps[k]? = some step ↔ ∃ x d, o.Makes debug x₀ k x d step) ∧
      steps.length = status.searches (o.finish debug r₀).run.nit ∧
      (o.finish debug r₀).run.Accounts (o.setup.settings.verifies debug) r₀
        (status.gradients (o.finish debug r₀).run.nit) steps := by
  rcases finish_ends debug hb with ⟨k, r, hr, hexit, hrun⟩ | ⟨hl, hrun, hexit⟩
  · have hends := ends_of_reaches hr hexit hrun
    have hnit : (o.finish debug r₀).run.nit = k := (Run.nit_of_ends hends).trans (nit_of_reaches hr)
    have hlast : ∀ {j r' step}, o.Reaches debug x₀ j r' → r'.Searches o.setup step → j < k + 1 :=
      fun hr' _ => Nat.lt_succ_of_le (le_of_reaches hr hexit hr')
    obtain ⟨steps, hlists, ha⟩ := reaches_accounts hb hr
    rw [hnit]
    generalize (o.finish debug r₀).run = t at hends
    generalize (o.finish debug r₀).exit = e at hends hx
    cases hends with
    | zeroGradient hz =>
      refine ⟨.zeroGradient, steps, rfl, hlists.getElem?_eq_some_iff ?_, hlists.length, ha⟩
      intro j r' step hr' hs
      apply Nat.lt_of_le_of_ne (le_of_reaches hr hexit hr')
      rintro rfl
      rw [reaches_unique hr' hr] at hs
      exact hs.nonzero hz
    | functionTolerance hs hf =>
      have hlists' := lists_push hlists hr hs
      exact ⟨.functionTolerance, _, rfl, hlists'.getElem?_eq_some_iff hlast, hlists'.length,
        Run.accounts_moved ha _⟩
    | gradientTolerance hd ht hg =>
      obtain ⟨step, hs, ha⟩ := Run.accounts_differentiates ha hd
      have hlists' := lists_push hlists hr hs
      exact ⟨.gradientTolerance, _, rfl, hlists'.getElem?_eq_some_iff hlast, hlists'.length, ha⟩
    | searchFails hz hs => exact (hx _ rfl).elim
    | gradientFails hs hf hg => exact (hx _ rfl).elim
    | checkFails hs hf hg hv hc => exact (hx _ rfl).elim
    | testFails hd ht => exact (hx _ rfl).elim
    | weightFails hp hw => exact (hx _ rfl).elim
  · obtain ⟨steps, hlists, ha⟩ := live_accounts hb le_rfl hl
    rw [hexit, hrun]
    refine ⟨.iterationLimit, steps, rfl, hlists.getElem?_eq_some_iff ?_, hlists.length,
      Run.accounts_nit ha _⟩
    rintro j r' step ⟨-, -, hj, -⟩ -
    exact hj

end

/-- A run that has begun has made one call of each function. -/
theorem counts_of_begins (hb : o.Begins x₀ r₀) : r₀.nfev = 1 ∧ r₀.njev = 1 := by
  cases hb
  exact ⟨rfl, rfl⟩

theorem record_of_begins (hb : o.Begins x₀ r₀) (ht : o.setup.settings.history = true) :
    ∃ h, r₀.history = some h ∧ h.size = 1 := by
  cases hb
  exact ⟨_, by rw [begin, if_pos ht], rfl⟩

theorem counts_finish (debug : Bool) (hb : o.Begins x₀ r₀)
    (hs : o.memory.search.strategy.Counts o.setup.objective o.setup.gradient) :
    (o.finish debug r₀).toTurn.Counts r₀ := by
  apply Run.counts_loop
  cases hb
  exact hs

/-- The counts of a run are those of its calls, unless it ends with a fault; then they may be less.
They are made up of the first value and gradient, what the searches have spent, and the gradients
after searches, for which a check takes four values for each component. The history has one entry
for the start and one for each search. -/
theorem minimize_accounts (o : Optimizer K n) (debug : Bool) (c : Candidate K) {x₀ : Vector K n}
    (hs : (∃ w, o.memory.search.strategy = .wolfe w) ∨ (∃ b, o.memory.search.strategy = .brent b) ∨
      o.memory.search.strategy.Counts o.setup.objective o.setup.gradient)
    (hc : c.toPoint n = .ok x₀) :
    ∃ report, o.minimize debug c = .ok report ∧
      ((∀ e, report.exit ≠ .failed e) →
        report.optimizer.memory.nfev = report.events.countP Event.isValue ∧
        report.optimizer.memory.njev = report.events.countP Event.isGradient ∧
        ∃ (status : Status) (steps : List (Step K)),
          report.optimizer.memory.status = some status ∧
          (∀ k step, steps[k]? = some step ↔ ∃ x d, o.Makes debug x₀ k x d step) ∧
          steps.length = status.searches report.optimizer.memory.nit ∧
          report.optimizer.memory.njev =
            1 + status.gradients report.optimizer.memory.nit + (steps.map (·.njev)).sum ∧
          report.optimizer.memory.nfev = 1 + (steps.map (·.nfev)).sum +
            (if o.setup.settings.verifies debug then
              4 * n * status.gradients report.optimizer.memory.nit else 0) ∧
          (o.setup.settings.history = true → ∃ h, report.optimizer.memory.history = some h ∧
            h.size = status.searches report.optimizer.memory.nit + 1)) ∧
      report.optimizer.memory.nfev ≤ report.events.countP Event.isValue ∧
      report.optimizer.memory.njev ≤ report.events.countP Event.isGradient := by
  refine ⟨_, minimize_of_toPoint hc, ?_⟩
  have hcounts : o.memory.search.strategy.Counts o.setup.objective o.setup.gradient := by
    rcases or_assoc.mpr hs with hs | hcounts
    · exact Strategy.counts_of_standard hs _ _
    · exact hcounts
  rcases begins_or_abandons o x₀ with ⟨r₀, hb⟩ | ⟨nfev, events, e, ha⟩
  · obtain ⟨-, hexit, hopt, hevents⟩ := minimizeFrom_of_begins debug hb
    have hloop := counts_finish debug hb hcounts
    obtain ⟨hnfev₀, hnjev₀⟩ := counts_of_begins hb
    rw [hexit, hopt, hevents, countP_isValue_start, countP_isGradient_start]
    refine ⟨?_, hnfev₀ ▸ hloop.nfev_le, hnjev₀ ▸ hloop.njev_le⟩
    intro hx
    obtain ⟨hnfev, hnjev⟩ := hloop.exact fun e h => hx e (Option.some.inj h)
    obtain ⟨status, steps, hstatus, hsteps, hlength, haccounts⟩ := finish_accounts hb hx
    have hn := haccounts.nfev
    have hg := haccounts.njev
    rw [hnfev₀] at hnfev hn
    rw [hnjev₀] at hnjev hg
    refine ⟨hnfev, hnjev, status, steps, hstatus, hsteps, hlength, hg, hn, ?_⟩
    intro ht
    obtain ⟨h₀, h0, hone⟩ := record_of_begins hb ht
    obtain ⟨h, hh, hsize⟩ := haccounts.history h0
    rw [hone, hlength, Nat.add_comm] at hsize
    exact ⟨h, hh, hsize⟩
  · rw [minimizeFrom_of_abandons debug ha]
    refine ⟨fun hx => (hx e rfl).elim, ?_, ?_⟩
    · cases ha with
      | objective hf => exact Nat.zero_le _
      | gradient hf hg => exact le_rfl
    · exact Nat.zero_le _

theorem minimize_accounts_bowl :
    let o : Optimizer ℚ 2 := .ofQuadratic .bowl (.wolfe .standard)
    ∃ (report : Report ℚ 2) (steps : List (Step ℚ)),
      o.minimize false (.ofVector #v[3, 2]) = .ok report ∧
      report.optimizer.memory.nfev = report.events.countP Event.isValue ∧
      report.optimizer.memory.njev = report.events.countP Event.isGradient ∧
      (∀ k step, steps[k]? = some step ↔ ∃ x d, o.Makes false #v[3, 2] k x d step) ∧
      report.optimizer.memory.njev = 3 + (steps.map (·.njev)).sum ∧
      report.optimizer.memory.nfev = 1 + (steps.map (·.nfev)).sum := by
  intro o
  have hstatus : (o.minimizeFrom false #v[3, 2]).optimizer.memory.status =
      some .gradientTolerance := by decide +kernel
  have hnit : (o.minimizeFrom false #v[3, 2]).optimizer.memory.nit = 1 := by decide +kernel
  have hreturns : (o.minimizeFrom false #v[3, 2]).outcome.toOption.isSome := by decide +kernel
  obtain ⟨report, hm, haccounts, -, -⟩ := minimize_accounts o false (.ofVector #v[3, 2])
    (.inl ⟨_, rfl⟩) (Candidate.toPoint_ofVector _)
  obtain rfl := eq_of_minimize (Candidate.toPoint_ofVector _) hm
  have hx : ∀ e, (o.minimizeFrom false #v[3, 2]).exit ≠ .failed e := by
    intro e he
    rw [Report.outcome, he] at hreturns
    cases hreturns
  obtain ⟨hv, hg, status, steps, hs, hsteps, -, hnjev, hnfev, -⟩ := haccounts hx
  rw [hstatus, Option.some.injEq] at hs
  subst hs
  rw [hnit] at hnjev hnfev
  exact ⟨_, steps, hm, hv, hg, hsteps, hnjev, hnfev⟩

end Optimizer
end Descent
