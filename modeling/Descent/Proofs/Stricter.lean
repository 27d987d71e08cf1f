import Mathlib
import Descent.Proofs.Quadratic
import Descent.Proofs.Run.Beside

/-! A greater budget and smaller tolerances only extend a run. -/
namespace Descent
variable {K : Type} {n : ℕ}

section
variable [Scalar K]

/-- The settings differ at most in the budget and the tolerances, and `b` is no laxer. -/
structure Settings.Stricter (a b : Settings K) : Prop where
  maxIter : a.maxIter ≤ b.maxIter
  ftol : b.ftol ≤ a.ftol
  gtol : b.gtol ≤ a.gtol
  tiny : b.tiny ≤ a.tiny
  method : b.method = a.method
  lineSearch : b.lineSearch = a.lineSearch
  checkGradient : b.checkGradient = a.checkGradient
  checkTol : b.checkTol = a.checkTol
  checkStep : b.checkStep = a.checkStep
  history : b.history = a.history

def Setup.withSettings (s : Setup K n) (b : Settings K) : Setup K n := { s with settings := b }

/-- The optimizer with other settings. -/
def Optimizer.withSettings (o : Optimizer K n) (b : Settings K) : Optimizer K n :=
  { o with setup := o.setup.withSettings b }

/-- The run does not end with a fault. -/
inductive Exit.Regular : Exit K → Prop
  | converged (status : Status) (value : K) : Regular (.converged status value)
  | exhausted (value : K) : Regular (.exhausted value)

end

/-- Two runs are the same until the first ends, and it ends first without a fault only. -/
def Coupling.lax [Scalar K] : Coupling K n := ⟨Eq, Eq, Exit.Regular, fun _ => False⟩

section
variable [Scalar K]

theorem beside_lax_rfl (t : Turn K n) : t.Beside .lax t := by
  refine .alike rfl ?_ rfl
  cases t.exit with
  | none => exact .none
  | some e => exact .some rfl

/-- The first part converges, and the second goes on from the same run. -/
theorem beside_lax_converged (r : Run K n) (status : Status) (value : K) {es es' : List (Event K n)}
    (h : Event.calls es = Event.calls es') :
    (⟨r, es, some (.converged status value)⟩ : Turn K n).Beside .lax ⟨r, es', none⟩ :=
  .shorter rfl (.converged _ _) rfl (.refl r) (h ▸ List.prefix_rfl)

end

variable [Field K] [LinearOrder K] [IsStrictOrderedRing K] [SquareRoot K]
  {s : Setup K n} {b : Settings K} {v : Bool} {r : Run K n}

namespace Run

theorem steady_of_stricter (h : s.settings.Stricter b) (hb : r.Steady (s.withSettings b)) :
    r.Steady s := by
  have htiny := h.tiny
  have hsum : |r.fmin| + |r.fx| + b.tiny ≤ |r.fmin| + |r.fx| + s.settings.tiny := by linarith
  have hnonneg : 0 ≤ |r.fmin| + |r.fx| + b.tiny := by
    have hb := b.tiny_nonneg
    rw [decimal_zero] at hb
    positivity
  have hftol := s.settings.ftol_nonneg
  rw [decimal_zero] at hftol
  calc 2.0 * |r.fmin - r.fx|
      ≤ b.ftol * (|r.fmin| + |r.fx| + b.tiny) := hb
    _ ≤ s.settings.ftol * (|r.fmin| + |r.fx| + s.settings.tiny) :=
        mul_le_mul h.ftol hsum hnonneg hftol

theorem kept_lax (h : s.settings.Stricter b) (v : Bool) :
    (Coupling.lax (n := n)).Kept s (s.withSettings b) v where
  nit := by
    rintro r _ k rfl
    rfl
  testZero := by
    rintro r _ rfl
    by_cases hb : abs r.squaredNorm < b.tiny
    · have ha : abs r.squaredNorm < s.settings.tiny := hb.trans_le h.tiny
      rw [testZero_of_lt ha, testZero_of_lt (s := s.withSettings b) hb]
      exact beside_lax_rfl _
    · rw [testZero_of_not_lt (s := s.withSettings b) hb]
      by_cases ha : abs r.squaredNorm < s.settings.tiny
      · rw [testZero_of_lt ha]
        exact beside_lax_converged r _ _ rfl
      · rw [testZero_of_not_lt ha]
        exact beside_lax_rfl _
  descend := by
    rintro r _ rfl
    exact beside_lax_rfl _
  testValue := by
    rintro r _ rfl
    by_cases hb : r.Steady (s.withSettings b)
    · rw [testValue_of_steady (steady_of_stricter h hb), testValue_of_steady hb]
      exact beside_lax_rfl _
    · rw [testValue_of_not_steady hb]
      by_cases ha : r.Steady s
      · rw [testValue_of_steady ha]
        exact beside_lax_converged r _ _ rfl
      · rw [testValue_of_not_steady ha]
        exact beside_lax_rfl _
  differentiate := by
    rintro r _ rfl
    exact beside_lax_rfl _
  checked := by
    rintro r _ rfl
    have hc : r.checked (s.withSettings b) v = r.checked s v := by
      simp only [checked, verify, Setup.withSettings, h.checkTol, h.checkStep]
    rw [hc]
    exact beside_lax_rfl _
  testGradient := by
    rintro r _ rfl
    cases ht : r.slopeTest with
    | error e =>
      rw [testGradient_of_error ht, testGradient_of_error ht]
      exact beside_lax_rfl _
    | ok test =>
      by_cases hb : test < b.gtol
      · have ha : test < s.settings.gtol := hb.trans_le h.gtol
        rw [testGradient_of_lt ht ha, testGradient_of_lt (s := s.withSettings b) ht hb]
        exact beside_lax_rfl _
      · rw [testGradient_of_not_lt (s := s.withSettings b) ht hb]
        by_cases ha : test < s.settings.gtol
        · rw [testGradient_of_lt ht ha]
          exact beside_lax_converged r _ _ rfl
        · rw [testGradient_of_not_lt ht ha]
          exact beside_lax_rfl _
  redirect := by
    rintro r _ rfl
    have hc : r.redirect (s.withSettings b) = r.redirect s := by
      simp only [redirect, Setup.withSettings, h.method]
    rw [hc]
    exact beside_lax_rfl _

end Run

/-- The exact settings with a greater budget and without tolerance for small gradients. -/
def Settings.untiring : Settings ℚ :=
  { Settings.exact with
    maxIter := 300
    gtol := 0.0
    maxIter_pos := by decide
    gtol_nonneg := le_rfl }

theorem Settings.stricter_untiring : (exact : Settings ℚ).Stricter untiring where
  maxIter := by decide
  ftol := le_rfl
  gtol := by norm_num [exact, untiring]
  tiny := le_rfl
  method := rfl
  lineSearch := rfl
  checkGradient := rfl
  checkTol := rfl
  checkStep := rfl
  history := rfl

namespace Optimizer
variable {o : Optimizer K n} {debug : Bool} {x₀ : Vector K n} {r₀ : Run K n} {k : ℕ}
  (h : o.setup.settings.Stricter b)
include h

omit [IsStrictOrderedRing K] in
theorem begins_withSettings (hb : o.Begins x₀ r₀) : (o.withSettings b).Begins x₀ r₀ := by
  cases hb with
  | intro hf hg =>
    rename_i fx gradient
    have heq : (o.withSettings b).begin x₀ fx gradient = o.begin x₀ fx gradient := by
      simp only [begin, withSettings, Setup.withSettings, h.history]
    rw [← heq]
    exact .intro hf hg

omit [IsStrictOrderedRing K] in
theorem verifies_withSettings (debug : Bool) :
    (o.withSettings b).setup.settings.verifies debug = o.setup.settings.verifies debug :=
  congrArg (·.getD debug) h.checkGradient

/-- A run with stricter settings comes wherever the run comes. -/
theorem reaches_withSettings {r : Run K n} (hr : o.Reaches debug x₀ k r) :
    (o.withSettings b).Reaches debug x₀ k r := by
  obtain ⟨r₀, hb, hk, hl, rfl⟩ := hr
  have hkept := Run.kept_lax h (o.setup.settings.verifies debug)
  have hl' := Run.live_beside hkept (rfl : r₀ = r₀) (fun _ h => h) hl
  have hafter : Run.after _ _ r₀ k = Run.after _ _ r₀ k := Run.runs_after hkept rfl hl hl'
  refine ⟨r₀, begins_withSettings h hb, hk.trans_le h.maxIter, ?_, ?_⟩
  · rw [verifies_withSettings h]
    exact hl'
  · rw [verifies_withSettings h, hafter]
    rfl

theorem makes_withSettings {x d : Vector K n} {step : Step K} (hm : o.Makes debug x₀ k x d step) :
    (o.withSettings b).Makes debug x₀ k x d step := by
  obtain ⟨r, hr, hs, hx, hd⟩ := hm
  refine ⟨r, reaches_withSettings h hr, ⟨?_, hs.found⟩, hx, hd⟩
  intro hz
  exact hs.nonzero (hz.trans_le h.tiny)

theorem beside_withSettings (debug : Bool) (r₀ : Run K n) :
    (o.finish debug r₀).toTurn.Beside .lax ((o.withSettings b).finish debug r₀).toTurn := by
  obtain ⟨extra, he⟩ := Nat.exists_eq_add_of_le h.maxIter
  have hkept := Run.kept_lax h (o.setup.settings.verifies debug)
  unfold finish
  rw [verifies_withSettings h]
  change (Run.loop o.setup _ r₀ _ 0).toTurn.Beside .lax
    (Run.loop (o.setup.withSettings b) _ r₀ b.maxIter 0).toTurn
  rw [he]
  apply Run.beside_loop hkept rfl
  · omega
  · change 0 + (o.setup.settings.maxIter + extra) ≤ b.maxIter
    omega
  · rintro r _ rfl
    refine .shorter rfl (.exhausted _) rfl ?_ List.nil_prefix
    rw [Nat.zero_add]
    apply Run.precedes_loop
    exact he.ge

/-- The stricter run is at least as long, and the same if the other one fails. -/
theorem finish_withSettings (debug : Bool) (r₀ : Run K n) :
    let f := o.finish debug r₀
    let f' := (o.withSettings b).finish debug r₀
    f.run.Precedes f'.run ∧ Event.calls f.events <+: Event.calls f'.events ∧
      ∀ e, f.exit = .failed e → f'.exit = .failed e ∧ f'.run = f.run := by
  intro f f'
  have hbeside : f.toTurn.Beside .lax f'.toTurn := beside_withSettings h debug r₀
  cases hbeside with
  | alike runs exits calls =>
    have hrun : f.run = f'.run := runs
    have hexit : f.exit = f'.exit := by
      cases exits with
      | some he => exact he
    refine ⟨hrun ▸ .refl _, calls ▸ List.prefix_rfl, ?_⟩
    intro e he
    exact ⟨hexit ▸ he, hrun.symm⟩
  | shorter exit stops runs precedes calls =>
    have hrun : f.run = _ := runs
    have hexit : f.exit = _ := Option.some.inj exit
    refine ⟨hrun ▸ precedes, calls, ?_⟩
    intro e he
    rw [← hexit, he] at stops
    cases stops
  | longer exit stops runs precedes calls => exact stops.elim

omit h

/-- A run with a greater budget and smaller tolerances makes the searches of the run and goes on from
there: its history extends the other, it calls the functions in the same order first, and its counts
are no less. If the run fails, it fails in the same iteration and in the same way. -/
theorem minimize_stricter (o : Optimizer K n) {b : Settings K} (debug : Bool) (c : Candidate K)
    {x₀ : Vector K n} (h : o.setup.settings.Stricter b) (hc : c.toPoint n = .ok x₀) :
    ∃ lax strict : Report K n, o.minimize debug c = .ok lax ∧
      (o.withSettings b).minimize debug c = .ok strict ∧
      (∀ k x d step, o.Makes debug x₀ k x d step →
        (o.withSettings b).Makes debug x₀ k x d step) ∧
      (∀ hist, lax.optimizer.memory.history = some hist →
        ∃ hist', strict.optimizer.memory.history = some hist' ∧ hist'.Extends hist) ∧
      Event.calls lax.events <+: Event.calls strict.events ∧
      lax.optimizer.memory.nfev ≤ strict.optimizer.memory.nfev ∧
      lax.optimizer.memory.njev ≤ strict.optimizer.memory.njev ∧
      ∀ e, lax.exit = .failed e → strict.exit = .failed e ∧
        strict.optimizer.memory.nit = lax.optimizer.memory.nit ∧ strict.point = lax.point := by
  refine ⟨_, _, minimize_of_toPoint hc, minimize_of_toPoint hc,
    fun k x d step => makes_withSettings h, ?_⟩
  rcases begins_or_abandons o x₀ with ⟨r₀, hb⟩ | ⟨nfev, events, e, ha⟩
  · obtain ⟨hprecedes, hcalls, hfails⟩ := finish_withSettings h debug r₀
    obtain ⟨hpoint, hexit, hopt, hevents⟩ := minimizeFrom_of_begins debug hb
    obtain ⟨hpoint', hexit', hopt', hevents'⟩ :=
      minimizeFrom_of_begins debug (begins_withSettings h hb)
    rw [hpoint, hexit, hopt, hevents, hpoint', hexit', hopt', hevents']
    refine ⟨fun hist hh => hprecedes.history hh, ?_, hprecedes.nfev, hprecedes.njev, ?_⟩
    · rw [Event.calls_start, Event.calls_start]
      exact (List.prefix_append_right_inj _).mpr hcalls
    · intro e he
      obtain ⟨he', hrun⟩ := hfails e he
      rw [hrun]
      exact ⟨he', rfl, rfl⟩
  · have ha' : (o.withSettings b).Abandons x₀ nfev events e := by
      cases ha with
      | objective hf => exact .objective hf
      | gradient hf hg => exact .gradient hf hg
    rw [minimizeFrom_of_abandons debug ha, minimizeFrom_of_abandons debug ha']
    refine ⟨fun hist hh => ⟨hist, hh, .refl hist⟩, List.prefix_rfl, le_rfl, le_rfl, ?_⟩
    intro e' he
    exact ⟨he, rfl, rfl⟩

theorem minimize_stricter_bowl :
    let o : Optimizer ℚ 2 := .ofQuadratic .bowl (.wolfe .standard)
    ∃ lax strict : Report ℚ 2, o.minimize false (.ofVector #v[3, 2]) = .ok lax ∧
      (o.withSettings .untiring).minimize false (.ofVector #v[3, 2]) = .ok strict ∧
      lax.optimizer.memory.status = some .gradientTolerance ∧
      strict.optimizer.memory.status = some .zeroGradient ∧
      Event.calls lax.events <+: Event.calls strict.events ∧
      lax.optimizer.memory.nfev ≤ strict.optimizer.memory.nfev := by
  intro o
  have hlax : (o.minimizeFrom false #v[3, 2]).optimizer.memory.status =
      some .gradientTolerance := by decide +kernel
  have hstrict : ((o.withSettings .untiring).minimizeFrom false #v[3, 2]).optimizer.memory.status =
      some .zeroGradient := by decide +kernel
  obtain ⟨lax, strict, hm, hm', -, -, hcalls, hnfev, -, -⟩ := minimize_stricter o false
    (.ofVector #v[3, 2]) Settings.stricter_untiring (Candidate.toPoint_ofVector _)
  obtain rfl := eq_of_minimize (Candidate.toPoint_ofVector _) hm
  obtain rfl := eq_of_minimize (Candidate.toPoint_ofVector _) hm'
  exact ⟨_, _, hm, hm', hlax, hstrict, hcalls, hnfev⟩

end Optimizer
end Descent
