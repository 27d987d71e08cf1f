import Mathlib
import Descent.Proofs.Accounting
import Descent.Proofs.Quadratic
import Descent.Proofs.Run.Checks
import Descent.Proofs.Run.Workspace

/-! To record the history and to check gradients is to observe a run: neither changes what it does,
until a check fails. -/
namespace Descent
variable {K : Type} {n : ℕ}

namespace Optimizer
variable [Scalar K]

/-- The optimizer that records the history, or does not. -/
def recording (history : Bool) (o : Optimizer K n) : Optimizer K n :=
  { o with setup := o.setup.observed o.setup.settings.checkGradient history }

/-- The optimizer with another choice whether gradients are checked. -/
def checking (check : Option Bool) (o : Optimizer K n) : Optimizer K n :=
  { o with setup := o.setup.observed check o.setup.settings.history }

/-- In iteration `k` of the run from `x₀` a gradient is checked, and the check fails. -/
def CheckFails (o : Optimizer K n) (debug : Bool) (x₀ : Vector K n) (k : ℕ) (e : Fault K) : Prop :=
  o.setup.settings.verifies debug = true ∧ ∃ r, o.Reaches debug x₀ k r ∧ r.CheckFails o.setup e

/-- In iteration `k` the run from `x₀` comes to a gradient, at `x`. -/
def ComesTo (o : Optimizer K n) (debug : Bool) (x₀ : Vector K n) (k : ℕ) (x : Vector K n) : Prop :=
  ∃ r step u, o.Reaches debug x₀ k r ∧ r.Arrives o.setup step u ∧ x = (r.moved o.setup step).x

variable {o : Optimizer K n} {debug debug' : Bool} {x₀ x : Vector K n} {r₀ r r' : Run K n} {j k : ℕ}
  {check : Option Bool} {history : Bool} {e : Fault K}

theorem visits_of_comesTo (h : o.ComesTo debug x₀ k x) : o.Visits debug x₀ (k + 1) x := by
  obtain ⟨r, step, u, hr, ha, rfl⟩ := h
  exact .moved hr ha.searches

theorem comesTo_of_differentiates (hr : o.Reaches debug x₀ k r)
    (hd : r.Differentiates o.setup (o.setup.settings.verifies debug) r') :
    ∃ x, o.ComesTo debug x₀ k x := by
  cases hd with
  | intro hs hf hg hc => exact ⟨_, r, _, _, hr, ⟨hs, hf, hg⟩, rfl⟩

/-- Every iteration before the one that the run has come to has come to a gradient. -/
theorem comesTo_of_live (hb : o.Begins x₀ r₀)
    (hl : Run.Live o.setup (o.setup.settings.verifies debug) r₀ k)
    (hk : k ≤ o.setup.settings.maxIter) (hj : j < k) : ∃ x, o.ComesTo debug x₀ j x := by
  obtain ⟨r', hd⟩ := (Run.completes_of_live (hl.mono hj)).differentiates
  exact comesTo_of_differentiates ⟨r₀, hb, by omega, hl.mono hj.le, rfl⟩ hd

/-- The iteration that ends a run comes to a gradient if it is the test of that gradient that ends
it, and otherwise ends before, or with a fault. -/
theorem exists_arrives_iff {s : Setup K n} {v : Bool} {exit : Exit K} {status : Status}
    (h : r.Ends s v r' exit) (hs : exit.status = some status) :
    (∃ step u, r.Arrives s step u) ↔ status = .gradientTolerance := by
  cases h with
  | zeroGradient hz =>
    cases hs
    refine iff_of_false ?_ (by rintro ⟨⟩)
    rintro ⟨step, u, ha⟩
    exact ha.searches.nonzero hz
  | functionTolerance hsearch hf =>
    cases hs
    refine iff_of_false ?_ (by rintro ⟨⟩)
    rintro ⟨step, u, ha⟩
    apply ha.unsteady
    rw [Run.searches_unique ha.searches hsearch]
    exact hf
  | gradientTolerance hd ht hg =>
    cases hs
    cases hd with
    | intro hsearch hf hg hc => exact iff_of_true ⟨_, _, hsearch, hf, hg⟩ rfl
  | searchFails hz hs' => cases hs
  | gradientFails hs' hf hg => cases hs
  | checkFails hs' hf hg hv hc => cases hs
  | testFails hd ht => cases hs
  | weightFails hp hw => cases hs

/-- A run that ends in iteration `k` has come to a gradient in every iteration before. -/
theorem exists_comesTo_of_reaches {exit : Exit K} (hr : o.Reaches debug x₀ k r)
    (he : (r.iterate o.setup (o.setup.settings.verifies debug) k).exit = some exit) (j : ℕ) :
    (∃ x, o.ComesTo debug x₀ j x) ↔ j < k ∨ j = k ∧ ∃ step u, r.Arrives o.setup step u := by
  constructor
  · rintro ⟨x, r', step, u, hr', ha, -⟩
    rcases (le_of_reaches hr he hr').lt_or_eq with hj | rfl
    · exact .inl hj
    · rw [reaches_unique hr' hr] at ha
      exact .inr ⟨rfl, step, u, ha⟩
  · rintro (hj | ⟨rfl, step, u, ha⟩)
    · obtain ⟨r₀, hb, hk, hl, -⟩ := hr
      exact comesTo_of_live hb hl hk.le hj
    · exact ⟨_, r, step, u, hr, ha, rfl⟩

/-- The status of a run tells in which iterations it has come to a gradient. -/
theorem exists_comesTo_iff (hb : o.Begins x₀ r₀) {status : Status}
    (hs : (o.finish debug r₀).exit.status = some status) (j : ℕ) :
    (∃ x, o.ComesTo debug x₀ j x) ↔ j < status.gradients (o.finish debug r₀).run.nit := by
  rcases finish_ends debug hb with ⟨k, r, hr, hexit, hrun⟩ | ⟨hl, hrun, hexit⟩
  · have hends := ends_of_reaches hr hexit hrun
    have hnit : (o.finish debug r₀).run.nit = k := (Run.nit_of_ends hends).trans (nit_of_reaches hr)
    rw [hnit, exists_comesTo_of_reaches hr hexit, exists_arrives_iff hends hs]
    cases status with
    | gradientTolerance =>
      simp only [and_true]
      exact Nat.lt_succ_iff_lt_or_eq.symm
    | zeroGradient => simp [Status.gradients]
    | functionTolerance => simp [Status.gradients]
    | iterationLimit => simp [Status.gradients]
  · rw [hexit] at hs
    cases hs
    rw [hrun]
    refine ⟨?_, comesTo_of_live hb hl le_rfl⟩
    rintro ⟨x, r, -, -, ⟨-, -, hj, -, -⟩, -⟩
    exact hj

theorem begins_recording (history : Bool) (h : o.Begins x₀ r₀) :
    ∃ hist, (o.recording history).Begins x₀ (r₀.shadowed hist r₀.search 0) := by
  cases h with
  | intro hf hg => exact ⟨_, .intro (o := o.recording history) hf hg⟩

/-- Runs with and without a record differ in the record only. -/
theorem finish_recording (hb : o.Begins x₀ r₀) (debug history : Bool) :
    ∃ r₁, (o.recording history).Begins x₀ r₁ ∧
      let f := o.finish debug r₀
      let f' := (o.recording history).finish debug r₁
      (∃ hist, f'.run = { f.run with history := hist }) ∧ f'.exit = f.exit ∧
        Event.calls f'.events = Event.calls f.events := by
  obtain ⟨hist, hb'⟩ := begins_recording history hb
  refine ⟨_, hb', ?_⟩
  have hruns : (Shadow.unrecorded.coupling 0).runs r₀ (r₀.shadowed hist r₀.search 0) :=
    ⟨hist, _, trivial, rfl, rfl⟩
  obtain ⟨⟨hist', l, -, rfl, hrun⟩, hexit, hcalls⟩ := Run.loop_shadow
    o.setup.settings.checkGradient history (o.setup.settings.verifies debug) hruns
    (Nat.zero_add o.setup.settings.maxIter).le
  exact ⟨⟨hist', hrun⟩, hexit, hcalls⟩

/-- Whether a run begins does not depend on what is observed. -/
theorem abandons_observed (check : Option Bool) (history : Bool) {nfev : ℕ}
    {events : List (Event K n)} (h : o.Abandons x₀ nfev events e) :
    Abandons { o with setup := o.setup.observed check history } x₀ nfev events e := by
  cases h with
  | objective hf => exact .objective hf
  | gradient hf hg => exact .gradient hf hg

theorem begins_checking : (o.checking check).Begins x₀ r₀ ↔ o.Begins x₀ r₀ := by
  constructor
  · rintro ⟨hf, hg⟩
    exact .intro (o := o) hf hg
  · rintro ⟨hf, hg⟩
    exact .intro (o := o.checking check) hf hg

section
variable (hv : o.setup.settings.verifies debug = false)
  (hv' : (o.checking check).setup.settings.verifies debug' = true)
include hv hv'

/-- The run with checks comes only where the run without them comes. -/
theorem reaches_of_checking (h : (o.checking check).Reaches debug' x₀ k r) :
    ∃ r', o.Reaches debug x₀ k r' ∧ r = r'.later (4 * n * k) := by
  obtain ⟨r₀, hb, hk, hl, rfl⟩ := h
  rw [hv'] at hl ⊢
  obtain ⟨hlive, hafter⟩ := Run.live_verified (s := o.setup) hl
  rw [← hv] at hlive hafter
  refine ⟨_, ⟨r₀, begins_checking.mp hb, hk, hlive, rfl⟩, ?_⟩
  have hafter : Run.after (o.checking check).setup true r₀ k = _ := hafter
  rw [hafter]
  rfl

theorem visits_of_checking (h : (o.checking check).Visits debug' x₀ k x) : o.Visits debug x₀ k x := by
  cases h with
  | start hb => exact .start (begins_checking.mp hb)
  | moved hr hs =>
    obtain ⟨r', hr', rfl⟩ := reaches_of_checking hv hv' hr
    exact .moved (r := r') hr' (Run.searches_later.mp hs)

omit hv in
/-- The first check that fails is one of the run with checks. -/
theorem not_checkFails (hc : ∀ k e, ¬ (o.checking check).CheckFails debug' x₀ k e)
    (hb : o.Begins x₀ r₀) (hk : k < o.setup.settings.maxIter) (hl : Run.Live o.setup false r₀ k)
    (e : Fault K) : ¬ { Run.after o.setup false r₀ k with nit := k }.CheckFails o.setup e := by
  -- the checks before `k` have to succeed for the run with checks to come to `k` at all
  induction k using Nat.strong_induction_on generalizing e with
  | _ k ih =>
    intro h
    have hlive : Run.Live (o.checking check).setup true r₀ k :=
      Run.live_of_checks (fun j hj hlj e' => ih j hj (hj.trans hk) hlj e') hl
    have hafter : Run.after (o.checking check).setup true r₀ k = _ := (Run.live_verified hlive).2
    refine hc k e ⟨hv', _, ⟨r₀, begins_checking.mpr hb, hk, ?_, rfl⟩, ?_⟩
    · rw [hv']
      exact hlive
    · rw [hv', hafter]
      exact Run.checkFails_later.mpr h

/-- If no check fails, then the run with checks comes wherever the run without them comes. -/
theorem reaches_checking (hc : ∀ k e, ¬ (o.checking check).CheckFails debug' x₀ k e)
    (h : o.Reaches debug x₀ k r) : (o.checking check).Reaches debug' x₀ k (r.later (4 * n * k)) := by
  obtain ⟨r₀, hb, hk, hl, rfl⟩ := h
  rw [hv] at hl ⊢
  have hlive : Run.Live (o.checking check).setup true r₀ k := Run.live_of_checks
    (fun j hj hlj e => not_checkFails hv' hc hb (hj.trans hk) hlj e) hl
  have hafter : Run.after (o.checking check).setup true r₀ k = _ := (Run.live_verified hlive).2
  refine ⟨r₀, begins_checking.mpr hb, hk, ?_, ?_⟩
  · rw [hv']
    exact hlive
  · rw [hv', hafter]
    rfl

theorem visits_checking (hc : ∀ k e, ¬ (o.checking check).CheckFails debug' x₀ k e) :
    (o.checking check).Visits debug' x₀ k x ↔ o.Visits debug x₀ k x := by
  constructor
  · exact visits_of_checking hv hv'
  · intro h
    cases h with
    | start hb => exact .start (begins_checking.mpr hb)
    | moved hr hs =>
      exact .moved (r := Run.later _ _) (reaches_checking hv hv' hc hr) (Run.searches_later.mpr hs)

theorem comesTo_checking (hc : ∀ k e, ¬ (o.checking check).CheckFails debug' x₀ k e) :
    (o.checking check).ComesTo debug' x₀ k x ↔ o.ComesTo debug x₀ k x := by
  constructor
  · rintro ⟨r, step, u, hr, ha, rfl⟩
    obtain ⟨r', hr', rfl⟩ := reaches_of_checking hv hv' hr
    exact ⟨r', step, u, hr', Run.arrives_later.mp ha, rfl⟩
  · rintro ⟨r, step, u, hr, ha, rfl⟩
    exact ⟨_, step, u, reaches_checking hv hv' hc hr, Run.arrives_later.mpr ha, rfl⟩

omit hv' in
theorem comesTo_iff (hb : o.Begins x₀ r₀) :
    o.ComesTo debug x₀ k x ↔ k < o.setup.settings.maxIter ∧ Run.ComesTo o.setup r₀ k x := by
  constructor
  · rintro ⟨r, step, u, ⟨r₁, hb₁, hk, hl, rfl⟩, ha, rfl⟩
    rw [hv, ← begins_unique hb hb₁] at hl ha ⊢
    exact ⟨hk, hl, step, u, ha, rfl⟩
  · rintro ⟨hk, hl, step, u, ha, rfl⟩
    rw [← hv] at hl ha ⊢
    exact ⟨_, step, u, ⟨r₀, hb, hk, hl, rfl⟩, ha, rfl⟩

/-- If no check fails, then the runs with and without checks differ in the values of the checks
only. -/
theorem finish_checking (hc : ∀ k e, ¬ (o.checking check).CheckFails debug' x₀ k e)
    (hb : o.Begins x₀ r₀) :
    ∃ xs, (o.finish debug r₀).toTurn.Verified o.setup.settings.checkStep 0 xs
        ((o.checking check).finish debug' r₀).toTurn ∧
      ∀ i x, xs[i]? = some x ↔ o.ComesTo debug x₀ i x := by
  have hchecks : ∀ j < 0 + o.setup.settings.maxIter, Run.Live o.setup false r₀ j →
      ∀ e, ¬ { Run.after o.setup false r₀ j with nit := j }.CheckFails o.setup e :=
    fun j hj hl => not_checkFails hv' hc hb (by omega) hl
  obtain ⟨xs, hverified, hindex⟩ :=
    Run.loop_verified check o.setup.settings.history hchecks Run.live_zero
  refine ⟨xs, ?_, ?_⟩
  · unfold finish
    rw [hv, hv']
    exact hverified
  · intro i x
    rw [hindex, Nat.zero_add, comesTo_iff hv hb]

end

/-- A check that fails ends the run, at the point to which it has moved. -/
theorem finish_of_checkFails (h : o.CheckFails debug x₀ k e) (hb : o.Begins x₀ r₀) :
    (o.finish debug r₀).exit = .failed e ∧ (o.finish debug r₀).run.nit = k ∧
      o.Visits debug x₀ (k + 1) (o.finish debug r₀).run.x := by
  obtain ⟨hv, r, hr, hc⟩ := h
  have hnit : { r with nit := k } = r := by
    rw [← nit_of_reaches hr]
  rw [← hnit] at hc
  obtain ⟨step, u, ha, hexit, hrun⟩ := Run.iterate_of_checkFails hc
  rw [← hv] at hexit hrun
  obtain ⟨hend, hlast⟩ := finish_of_reaches hb hr hexit
  rw [hend, hlast, hrun]
  rw [hnit] at ha
  exact ⟨rfl, rfl, .moved (r := r) hr ha.searches⟩

/-- Point number `k` of the run that a call with `c` makes. -/
def Iterates (o : Optimizer K n) (debug : Bool) (c : Candidate K) (k : ℕ) (x : Vector K n) : Prop :=
  ∃ x₀, c.toPoint n = .ok x₀ ∧ o.Visits debug x₀ k x

/-- In iteration `k` the run that a call with `c` makes comes to a gradient, at `x`. -/
def Differentiates (o : Optimizer K n) (debug : Bool) (c : Candidate K) (k : ℕ) (x : Vector K n) :
    Prop := ∃ x₀, c.toPoint n = .ok x₀ ∧ o.ComesTo debug x₀ k x

/-- In iteration `k` of the run that a call with `c` makes, a gradient fails its check. -/
def FailsCheck (o : Optimizer K n) (debug : Bool) (c : Candidate K) (k : ℕ) (e : Fault K) : Prop :=
  ∃ x₀, c.toPoint n = .ok x₀ ∧ o.CheckFails debug x₀ k e

variable {c : Candidate K}

theorem minimize_recording (o : Optimizer K n) (w w' : Workspace K n) (debug history : Bool)
    (c : Candidate K) :
    let a := (o.inPlace w).minimize debug c
    let b := ((o.recording history).inPlace w').minimize debug c
    b.point = a.point ∧ b.outcome = a.outcome ∧ Event.calls b.events = Event.calls a.events ∧
      ∃ hist, b.minimizer.memory = { a.minimizer.memory with history := hist } := by
  intro a b
  cases hc : c.toPoint n with
  | error e =>
    have ha : a = _ := Minimizer.minimize_of_error hc
    have hb : b = _ := Minimizer.minimize_of_error hc
    rw [ha, hb]
    exact ⟨rfl, rfl, rfl, o.memory.history, rfl⟩
  | ok x₀ =>
    rcases begins_or_abandons o x₀ with ⟨r₀, hbegins⟩ | ⟨nfev, events, e, habandons⟩
    · obtain ⟨r₁, hbegins', ⟨hist, hrun⟩, hexit, hcalls⟩ := finish_recording hbegins debug history
      obtain ⟨hpoint, hmemory, hevents, houtcome⟩ := inPlace_of_begins w debug hc hbegins
      obtain ⟨hpoint', hmemory', hevents', houtcome'⟩ := inPlace_of_begins w' debug hc hbegins'
      rw [hrun, hexit] at hmemory'
      refine ⟨?_, ?_, ?_, hist, ?_⟩
      · rw [hpoint, hpoint', hrun]
      · rw [houtcome, houtcome', hexit]
        rfl
      · rw [hevents, hevents', hcalls]
      · rw [hmemory, hmemory']
        rfl
    · obtain ⟨hpoint, hmemory, hevents, houtcome⟩ := inPlace_of_abandons w debug hc habandons
      have habandons' : (o.recording history).Abandons x₀ nfev events e :=
        abandons_observed _ history habandons
      obtain ⟨hpoint', hmemory', hevents', houtcome'⟩ := inPlace_of_abandons w' debug hc habandons'
      rw [hpoint, hmemory, hevents, houtcome, hpoint', hmemory', hevents', houtcome']
      exact ⟨rfl, rfl, rfl, o.memory.history, rfl⟩

section
variable (hv : o.setup.settings.verifies debug = false)
  (hv' : (o.checking check).setup.settings.verifies debug' = true)
include hv hv'

/-- A call whose checks all succeed makes one for each gradient that it comes to. -/
theorem minimize_checking (w w' : Workspace K n)
    (hchecks : ∀ k e, ¬ (o.checking check).FailsCheck debug' c k e) :
    let a := (o.inPlace w).minimize debug c
    let b := ((o.checking check).inPlace w').minimize debug' c
    ∃ xs : List (Vector K n), b.point = a.point ∧ b.outcome = a.outcome ∧
      b.minimizer.memory =
        { a.minimizer.memory with nfev := a.minimizer.memory.nfev + 4 * n * xs.length } ∧
      Event.Woven o.setup.settings.checkStep xs (Event.calls a.events) (Event.calls b.events) ∧
      (∀ i x, xs[i]? = some x ↔ (o.checking check).Differentiates debug' c i x) ∧
      (∀ i x, xs[i]? = some x → o.Iterates debug c (i + 1) x) ∧
      (∀ x₀ status, c.toPoint n = .ok x₀ → a.minimizer.memory.status = some status →
        xs.length = status.gradients a.minimizer.memory.nit) ∧
      ∀ k x, ((o.checking check).Iterates debug' c k x ↔ o.Iterates debug c k x) ∧
        ((o.checking check).Differentiates debug' c k x ↔ o.Differentiates debug c k x) := by
  intro a b
  cases hc : c.toPoint n with
  | error e =>
    have ha : a = _ := Minimizer.minimize_of_error hc
    have hb : b = _ := Minimizer.minimize_of_error hc
    rw [ha, hb]
    refine ⟨[], rfl, rfl, rfl, .nil, ?_, by simp, ?_, ?_⟩
    · intro i x
      simp only [Differentiates, hc, List.getElem?_nil, reduceCtorEq, false_and, exists_false]
    · rintro x₀ status ⟨⟩
    · intro k x
      simp only [Iterates, Differentiates, hc, reduceCtorEq, false_and, exists_false, and_self]
  | ok x₀ =>
    have hnone : ∀ k e, ¬ (o.checking check).CheckFails debug' x₀ k e :=
      fun k e h => hchecks k e ⟨x₀, hc, h⟩
    have hiterates : ∀ k x, ((o.checking check).Iterates debug' c k x ↔ o.Iterates debug c k x) ∧
        ((o.checking check).Differentiates debug' c k x ↔ o.Differentiates debug c k x) := by
      intro k x
      simp only [Iterates, Differentiates, hc, Except.ok.injEq, exists_eq_left']
      exact ⟨visits_checking hv hv' hnone, comesTo_checking hv hv' hnone⟩
    rcases begins_or_abandons o x₀ with ⟨r₀, hbegins⟩ | ⟨nfev, events, e, habandons⟩
    · have hbegins' : (o.checking check).Begins x₀ r₀ := begins_checking.mpr hbegins
      obtain ⟨xs, ⟨hrun, hexit, hcalls⟩, hindex⟩ := finish_checking hv hv' hnone hbegins
      obtain ⟨hpoint, hmemory, hevents, houtcome⟩ := inPlace_of_begins w debug hc hbegins
      obtain ⟨hpoint', hmemory', hevents', houtcome'⟩ :=
        inPlace_of_begins w' debug' hc hbegins'
      have hrun : ((o.checking check).finish debug' r₀).run =
          (o.finish debug r₀).run.later (0 + 4 * n * xs.length) := hrun
      have hexit : ((o.checking check).finish debug' r₀).exit = (o.finish debug r₀).exit :=
        Option.some.inj hexit
      rw [Nat.zero_add] at hrun
      rw [hrun] at hpoint' hmemory'
      rw [hexit] at hmemory' houtcome'
      refine ⟨xs, ?_, ?_, ?_, ?_, ?_, ?_, ?_, hiterates⟩
      · rw [hpoint, hpoint']
        rfl
      · rw [houtcome, houtcome']
        rfl
      · rw [hmemory, hmemory']
        rfl
      · rw [hevents, hevents']
        exact .call _ (.call _ hcalls)
      · intro i x
        rw [hindex, (hiterates i x).2]
        simp only [Differentiates, hc, Except.ok.injEq, exists_eq_left']
      · intro i x hx
        exact ⟨x₀, hc, visits_of_comesTo ((hindex i x).mp hx)⟩
      · intro x₁ status _ hstatus
        rw [hmemory] at hstatus ⊢
        apply eq_of_forall_lt_iff
        intro i
        have hlength : i < xs.length ↔ ∃ x, xs[i]? = some x :=
          ⟨fun h => ⟨_, List.getElem?_eq_getElem h⟩,
            fun ⟨x, hx⟩ => (List.getElem?_eq_some_iff.mp hx).1⟩
        exact hlength.trans ((exists_congr (hindex i)).trans (exists_comesTo_iff hbegins hstatus i))
    · obtain ⟨hpoint, hmemory, hevents, houtcome⟩ := inPlace_of_abandons w debug hc habandons
      have habandons' : (o.checking check).Abandons x₀ nfev events e :=
        abandons_observed check _ habandons
      obtain ⟨hpoint', hmemory', hevents', houtcome'⟩ := inPlace_of_abandons w' debug' hc habandons'
      rw [hpoint, hmemory, hevents, houtcome, hpoint', hmemory', hevents', houtcome']
      refine ⟨[], rfl, rfl, rfl, Event.woven_refl _ _, ?_, by simp, ?_, hiterates⟩
      · intro i x
        refine iff_of_false (by simp) ?_
        rintro ⟨x₁, hc₁, r, -, -, ⟨r₁, hbegins, -⟩, -⟩
        cases hc.symm.trans hc₁
        exact not_begins_of_abandons habandons' hbegins
      · intro x₁ status _ hstatus
        cases hstatus

/-- A call in which a check fails. -/
theorem minimize_failing (w' : Workspace K n)
    (h : (o.checking check).FailsCheck debug' c k e) :
    let b := ((o.checking check).inPlace w').minimize debug' c
    b.outcome = .error e ∧ b.minimizer.memory.nit = k ∧
      (∃ x, b.point = { c with values := .ofVector x } ∧ o.Iterates debug c (k + 1) x ∧
        (o.checking check).Iterates debug' c (k + 1) x) ∧
      ∀ j ≤ k + 1, ∃ x, o.Iterates debug c j x ∧ (o.checking check).Iterates debug' c j x := by
  intro b
  obtain ⟨x₀, hc, hfails⟩ := h
  have hboth : ∀ {j x}, (o.checking check).Visits debug' x₀ j x →
      o.Iterates debug c j x ∧ (o.checking check).Iterates debug' c j x :=
    fun hx => ⟨⟨x₀, hc, visits_of_checking hv hv' hx⟩, x₀, hc, hx⟩
  obtain ⟨-, r, hr, -⟩ := id hfails
  obtain ⟨r₀, hbegins, -⟩ := id hr
  obtain ⟨hexit, hnit, hlast⟩ := finish_of_checkFails hfails hbegins
  obtain ⟨hpoint, hmemory, -, houtcome⟩ := inPlace_of_begins w' debug' hc hbegins
  refine ⟨?_, ?_, ⟨_, hpoint, hboth hlast⟩, ?_⟩
  · rw [houtcome, hexit]
    rfl
  · rw [hmemory]
    exact hnit
  · intro j hj
    rcases hj.lt_or_eq with hlt | rfl
    · obtain ⟨r', hr'⟩ := hr.mono (Nat.le_of_lt_succ hlt)
      exact ⟨_, hboth (visits_of_reaches hr')⟩
    · exact ⟨_, hboth hlast⟩

end

/-- To record the history changes nothing but the history. To check gradients changes nothing but
the number of values, as long as no check fails: it grows by four for each component of each gradient
that follows a search, as many as the status tells. A check that fails ends the run with its fault at
the point whose gradient it is, and up to there the run without checks goes the same way. What the
working vectors hold before does not matter. -/
theorem minimize_unobserved (o : Optimizer K n) (w w' : Workspace K n) (debug : Bool)
    (c : Candidate K) :
    (∀ history,
      let a := (o.inPlace w).minimize debug c
      let b := ((o.recording history).inPlace w').minimize debug c
      b.point = a.point ∧ b.outcome = a.outcome ∧ Event.calls b.events = Event.calls a.events ∧
        ∃ hist, b.minimizer.memory = { a.minimizer.memory with history := hist }) ∧
    ∀ check debug', o.setup.settings.verifies debug = false →
      (o.checking check).setup.settings.verifies debug' = true →
      let a := (o.inPlace w).minimize debug c
      let b := ((o.checking check).inPlace w').minimize debug' c
      ((∀ k e, ¬ (o.checking check).FailsCheck debug' c k e) →
        ∃ xs : List (Vector K n), b.point = a.point ∧ b.outcome = a.outcome ∧
          b.minimizer.memory =
            { a.minimizer.memory with nfev := a.minimizer.memory.nfev + 4 * n * xs.length } ∧
          Event.Woven o.setup.settings.checkStep xs (Event.calls a.events) (Event.calls b.events) ∧
          (∀ i x, xs[i]? = some x ↔ (o.checking check).Differentiates debug' c i x) ∧
          (∀ i x, xs[i]? = some x → o.Iterates debug c (i + 1) x) ∧
          (∀ x₀ status, c.toPoint n = .ok x₀ → a.minimizer.memory.status = some status →
            xs.length = status.gradients a.minimizer.memory.nit) ∧
          ∀ k x, ((o.checking check).Iterates debug' c k x ↔ o.Iterates debug c k x) ∧
            ((o.checking check).Differentiates debug' c k x ↔ o.Differentiates debug c k x)) ∧
      ∀ k e, (o.checking check).FailsCheck debug' c k e →
        b.outcome = .error e ∧ b.minimizer.memory.nit = k ∧
        (∃ x, b.point = { c with values := .ofVector x } ∧ o.Iterates debug c (k + 1) x ∧
          (o.checking check).Iterates debug' c (k + 1) x) ∧
        ∀ j ≤ k + 1, ∃ x, o.Iterates debug c j x ∧ (o.checking check).Iterates debug' c j x := by
  refine ⟨fun history => minimize_recording o w w' debug history c, ?_⟩
  intro check debug' hv hv' a b
  exact ⟨minimize_checking hv hv' w w', fun k e => minimize_failing hv hv' w'⟩

theorem minimize_unobserved_bowl :
    let o : Optimizer ℚ 2 := .ofQuadratic .bowl (.wolfe .standard)
    let w : Workspace ℚ 2 := ⟨#v[1, 2], #v[3, 4], #v[5, 6], #v[7, 8]⟩
    let c : Candidate ℚ := .ofVector #v[3, 2]
    let a := (o.inPlace .blank).minimize false c
    let b := ((o.checking none).inPlace w).minimize true c
    o.setup.settings.verifies false = false ∧ (o.checking none).setup.settings.verifies true = true ∧
      (∀ k e, ¬ (o.checking none).FailsCheck true c k e) ∧
      ∃ xs : List (Vector ℚ 2), b.point = a.point ∧ b.outcome = a.outcome ∧ xs.length = 2 ∧
        b.minimizer.memory.nfev = a.minimizer.memory.nfev + 16 ∧
        ∀ i x, xs[i]? = some x ↔ (o.checking none).Differentiates true c i x := by
  intro o w c a b
  have hv : o.setup.settings.verifies false = false := rfl
  have hv' : (o.checking none).setup.settings.verifies true = true := rfl
  have hok : b.outcome.toOption.isSome = true := by decide +kernel
  have hstatus : a.minimizer.memory.status = some .gradientTolerance := by decide +kernel
  have hnit : a.minimizer.memory.nit = 1 := by decide +kernel
  obtain ⟨hpasses, hfails⟩ := (minimize_unobserved o .blank w false c).2 none true hv hv'
  have hnone : ∀ k e, ¬ (o.checking none).FailsCheck true c k e := by
    intro k e h
    have houtcome : b.outcome = .error e := (hfails k e h).1
    rw [houtcome] at hok
    cases hok
  obtain ⟨xs, hpoint, houtcome, hmemory, -, hindex, -, hlength, -⟩ := hpasses hnone
  have hlength : xs.length = 2 := by
    rw [hlength _ _ (Candidate.toPoint_ofVector _) hstatus, hnit]
    rfl
  rw [hlength] at hmemory
  exact ⟨hv, hv', hnone, xs, hpoint, houtcome, hlength, congrArg Memory.nfev hmemory, hindex⟩

end Optimizer
end Descent
