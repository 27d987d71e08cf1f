import Mathlib
import Descent.Proofs.Quadratic
import Descent.Proofs.Run.Raise

/-! A constant added to the objective does not change the way of a run, in exact arithmetic. It can
only change when the run ends within a tolerance. -/
namespace Descent
variable {K : Type} [Field K] [LinearOrder K] [SquareRoot K] {n : ℕ} {C : K}

/-- The optimizer for the objective with a constant added to it. -/
def Optimizer.raise (C : K) (o : Optimizer K n) : Optimizer K n :=
  { o with setup := o.setup.raise C }

/-- A run ends within a tolerance, no later than another one, which makes all of its calls. -/
structure Report.StopsBefore (r r' : Report K n) : Prop where
  tolerated : r.exit.Tolerated r.optimizer.setup.settings
  nit : r.optimizer.memory.nit ≤ r'.optimizer.memory.nit
  calls : Event.calls r.events <+: Event.calls r'.events

theorem History.extends_raise {h h' : History K n} (he : h'.Extends h) :
    (h'.raise C).Extends (h.raise C) := by
  refine ⟨?_, he.iterates, he.steps⟩
  simp only [raise, Array.toList_map]
  exact he.values.map _

theorem Exit.status_raise (e : Exit K) : (e.raise C).status = e.status := by
  cases e with
  | converged status value => rfl
  | exhausted value => rfl
  | failed e => rfl

namespace Finish
variable {a : Settings K} {f f' : Finish K n} (h : f.toTurn.Beside (.offset C a) f'.toTurn)
include h

theorem history_of_beside {hist hist' : History K n} (hh : f.run.history = some hist)
    (hh' : f'.run.history = some hist') :
    hist'.Extends (hist.raise C) ∨ (hist.raise C).Extends hist' := by
  cases h with
  | alike runs exits calls =>
    have hrun : f'.run = f.run.raise C := runs.1
    rw [hrun, Run.raise, hh] at hh'
    cases hh'
    exact .inl (.refl _)
  | shorter exit stops runs precedes calls =>
    rw [runs.1] at precedes
    have hr : (f.run.raise C).history = some (hist.raise C) := by
      rw [Run.raise, hh]
      rfl
    obtain ⟨hist'', hh'', he⟩ := precedes.history hr
    cases hh'.symm.trans hh''
    exact .inl he
  | longer exit stops runs precedes calls =>
    rename_i e r
    have hrun : f'.run = r.raise C := runs.1
    rw [hrun] at hh'
    obtain ⟨hist₀, hr, rfl⟩ := Option.map_eq_some_iff.mp hh'
    obtain ⟨hist'', hh'', he⟩ := precedes.history hr
    cases hh.symm.trans hh''
    exact .inr (History.extends_raise he)

/-- If the run fails, the other one fails in the same way or has stopped within a tolerance. -/
theorem fails_of_beside {e : Fault K} (he : f.exit = .failed e) :
    (f'.exit = .failed e ∧ f'.run.nit = f.run.nit) ∨
      (f'.exit.Tolerated a ∧ f'.run.nit ≤ f.run.nit ∧
        Event.calls f'.events <+: Event.calls f.events) := by
  cases h with
  | alike runs exits calls =>
    have hrun : f'.run = f.run.raise C := runs.1
    cases exits with
    | some hexit =>
      have hexit : f'.exit = f.exit.raise C := hexit
      rw [hexit, he, hrun]
      exact .inl ⟨rfl, rfl⟩
  | shorter exit stops runs precedes calls =>
    cases Option.some.inj exit
    rw [he] at stops
    cases stops
  | longer exit stops runs precedes calls =>
    cases Option.some.inj exit
    have hrun : f'.run = _ := runs.1
    rw [hrun]
    exact .inr ⟨stops, precedes.nit, calls⟩

/-- Without tolerances, neither run can stop alone. -/
theorem eq_of_beside (hf : a.ftol = 0) (hg : a.gtol = 0) :
    f'.run = f.run.raise C ∧ f'.exit = f.exit.raise C ∧
      Event.calls f'.events = Event.calls f.events := by
  have hnone : ∀ e : Exit K, ¬ e.Tolerated a := by
    rintro e (h | h)
    · exact h hf
    · exact h hg
  cases h with
  | alike runs exits calls =>
    cases exits with
    | some hexit => exact ⟨runs.1, hexit, calls.symm⟩
  | shorter exit stops runs precedes calls => exact (hnone _ stops).elim
  | longer exit stops runs precedes calls => exact (hnone _ stops).elim

end Finish

theorem Run.raise_neg (r : Run K n) : (r.raise C).raise (-C) = r := by
  have hhistory : (r.history.map (History.raise C)).map (History.raise (-C)) = r.history := by
    cases r.history with
    | none => rfl
    | some h => simp [History.raise, Function.comp_def]
  unfold raise
  simp only [hhistory, add_neg_cancel_right]

theorem Exit.raise_neg (e : Exit K) : (e.raise C).raise (-C) = e := by
  cases e with
  | converged status value => simp only [raise, add_neg_cancel_right]
  | exhausted value => simp only [raise, add_neg_cancel_right]
  | failed e => rfl

/-- The first run is the second with the opposite constant. -/
theorem Turn.beside_symm {a : Settings K} {t t' : Turn K n} (h : t.Beside (.offset C a) t') :
    t'.Beside (.offset (-C) a) t := by
  cases h with
  | alike runs exits calls =>
    obtain ⟨hrun, hs⟩ := runs
    refine .alike ⟨?_, ?_⟩ ?_ calls.symm
    · rw [hrun, Run.raise_neg]
    · rw [hrun]
      exact hs
    · generalize t.exit = x at exits
      generalize t'.exit = x' at exits
      cases exits with
      | none => exact .none
      | some hexit =>
        rename_i e e'
        have hexit : e' = e.raise C := hexit
        have hback : e = e'.raise (-C) := by rw [hexit, Exit.raise_neg]
        exact .some hback
  | shorter exit stops runs precedes calls =>
    obtain ⟨rfl, hs⟩ := runs
    exact .longer exit stops ⟨(Run.raise_neg _).symm, hs⟩ precedes calls
  | longer exit stops runs precedes calls =>
    obtain ⟨hrun, hs⟩ := runs
    refine .shorter exit stops ⟨?_, ?_⟩ precedes calls
    · rw [hrun, Run.raise_neg]
    · rw [hrun]
      exact hs

namespace Optimizer
variable {o : Optimizer K n} {debug : Bool} {x₀ : Vector K n} {r₀ : Run K n} {k : ℕ}

/-- The value that a run expects before its start grows by the constant as well. -/
theorem begins_raise (h : o.Begins x₀ r₀) : (o.raise C).Begins x₀ (r₀.raise C) := by
  cases h with
  | intro hf hg =>
    rename_i fx gradient
    have hf' : (o.raise C).setup.objective x₀ = .ok (fx + C) :=
      congrArg (Except.map (· + C)) hf
    have hfold : fx + C + norm (-gradient) / 2.0 = fx + norm (-gradient) / 2.0 + C :=
      add_right_comm _ _ _
    have heq : (o.raise C).begin x₀ (fx + C) gradient = (o.begin x₀ fx gradient).raise C := by
      unfold begin Run.raise
      dsimp only
      rw [hfold]
      have hsettings : (o.raise C).setup.settings = o.setup.settings := rfl
      have hempty : (History.empty.push ⟨fx + C, x₀, zeros n⟩ : History K n) =
          (History.empty.push ⟨fx, x₀, zeros n⟩).raise C := by
        simp [History.raise, History.empty, History.push]
      rw [hsettings, hempty]
      cases o.setup.settings.history with
      | false => rfl
      | true => rfl
    rw [← heq]
    exact .intro hf' hg

theorem abandons_raise {nfev : ℕ} {events : List (Event K n)} {e : Fault K}
    (h : o.Abandons x₀ nfev events e) : (o.raise C).Abandons x₀ nfev events e := by
  cases h with
  | objective hf => exact .objective (congrArg (Except.map (· + C)) hf)
  | gradient hf hg => exact .gradient (congrArg (Except.map (· + C)) hf) hg

/-- If one of two runs fails, the other one does so too or has stopped before. -/
theorem fails_of_beside {o' : Optimizer K n} {r₁ : Run K n} {e : Fault K} (hb : o.Begins x₀ r₀)
    (hb' : o'.Begins x₀ r₁)
    (h : (o.finish debug r₀).toTurn.Beside (.offset C o'.setup.settings)
      (o'.finish debug r₁).toTurn)
    (he : (o.minimizeFrom debug x₀).exit = .failed e) :
    (o'.minimizeFrom debug x₀).StopsBefore (o.minimizeFrom debug x₀) ∨
      (o'.minimizeFrom debug x₀).exit = .failed e ∧
        (o'.minimizeFrom debug x₀).optimizer.memory.nit =
          (o.minimizeFrom debug x₀).optimizer.memory.nit := by
  obtain ⟨-, hexit, hopt, hevents⟩ := minimizeFrom_of_begins debug hb
  obtain ⟨-, hexit', hopt', hevents'⟩ := minimizeFrom_of_begins debug hb'
  rw [hexit] at he
  rcases Finish.fails_of_beside h he with ⟨he', hnit⟩ | ⟨hstops, hnit, hcalls⟩
  · rw [hexit', hopt, hopt']
    exact .inr ⟨he', hnit⟩
  · refine .inl ⟨?_, ?_, ?_⟩
    · rw [hexit', hopt']
      exact hstops
    · rw [hopt, hopt']
      exact hnit
    · rw [hevents, hevents', Event.calls_start, Event.calls_start]
      exact (List.prefix_append_right_inj _).mpr hcalls

theorem offset_of_begins {a : Settings K} (hs : o.memory.search.strategy.Offsets)
    (hb : o.Begins x₀ r₀) : (Coupling.offset C a).runs r₀ (r₀.raise C) := by
  cases hb
  exact ⟨rfl, hs⟩

section
variable [IsStrictOrderedRing K]

theorem beside_raise (hs : o.memory.search.strategy.Offsets) (hb : o.Begins x₀ r₀)
    (debug : Bool) : (o.finish debug r₀).toTurn.Beside (.offset C o.setup.settings)
      ((o.raise C).finish debug (r₀.raise C)).toTurn := by
  have hkept := Run.kept_offset C o.setup (o.setup.settings.verifies debug)
  have hk : 0 + (o.setup.settings.maxIter + 0) ≤ o.setup.settings.maxIter := (Nat.zero_add _).le
  refine Run.beside_loop hkept (offset_of_begins hs hb) hk hk ?_
  rintro r _ ⟨rfl, hs⟩
  exact .alike ⟨rfl, hs⟩ (.some rfl) rfl

/-- The runs differ by the constant before each iteration that both come to. -/
theorem reaches_raise {r r' : Run K n} (hs : o.memory.search.strategy.Offsets)
    (hr : o.Reaches debug x₀ k r) (hr' : (o.raise C).Reaches debug x₀ k r') :
    r' = r.raise C ∧ r.search.strategy.Offsets := by
  obtain ⟨r₀, hb, -, hl, rfl⟩ := hr
  obtain ⟨r₁, hb₁, -, hl', rfl⟩ := hr'
  obtain rfl := begins_unique hb₁ (begins_raise hb)
  have hkept := Run.kept_offset C o.setup (o.setup.settings.verifies debug)
  exact hkept.nit k (Run.runs_after hkept (offset_of_begins hs hb) hl hl')

/-- A constant added to the objective does not change the way of a run. As long as the runs for the
two objectives go on they call the functions at the same points in the same order, and they search
along the same lines with the same steps; the values in the histories differ by the constant. If one
of them fails, then the other fails in the same iteration and in the same way, unless a tolerance
stops it before. Without tolerances the runs are the same throughout. -/
theorem minimize_raise (o : Optimizer K n) (C : K) (debug : Bool) (c : Candidate K)
    {x₀ : Vector K n}
    (hs : (∃ w, o.memory.search.strategy = .wolfe w) ∨ ∃ b, o.memory.search.strategy = .brent b)
    (hc : c.toPoint n = .ok x₀) :
    ∃ a b : Report K n, o.minimize debug c = .ok a ∧ (o.raise C).minimize debug c = .ok b ∧
      (Event.calls a.events <+: Event.calls b.events ∨
        Event.calls b.events <+: Event.calls a.events) ∧
      (∀ k r r', o.Reaches debug x₀ k r → (o.raise C).Reaches debug x₀ k r' → r' = r.raise C ∧
        ∀ step, r'.Searches (o.raise C).setup (step.raise C) ↔ r.Searches o.setup step) ∧
      ((∃ r₀, o.Begins x₀ r₀) → o.setup.settings.history = true →
        ∃ h h', a.optimizer.memory.history = some h ∧ b.optimizer.memory.history = some h' ∧
          (h'.Extends (h.raise C) ∨ (h.raise C).Extends h')) ∧
      (∀ e, a.exit = .failed e → b.StopsBefore a ∨
        b.exit = .failed e ∧ b.optimizer.memory.nit = a.optimizer.memory.nit) ∧
      (∀ e, b.exit = .failed e → a.StopsBefore b ∨
        a.exit = .failed e ∧ a.optimizer.memory.nit = b.optimizer.memory.nit) ∧
      (o.setup.settings.ftol = 0 → o.setup.settings.gtol = 0 →
        b.exit = a.exit.raise C ∧ b.point = a.point ∧
        Event.calls b.events = Event.calls a.events ∧
        b.optimizer.memory.status = a.optimizer.memory.status ∧
        b.optimizer.memory.nit = a.optimizer.memory.nit ∧
        b.optimizer.memory.nfev = a.optimizer.memory.nfev ∧
        b.optimizer.memory.njev = a.optimizer.memory.njev) := by
  have hoff : o.memory.search.strategy.Offsets := Strategy.offsets_of_standard hs
  refine ⟨_, _, minimize_of_toPoint hc, minimize_of_toPoint hc, ?_⟩
  rcases begins_or_abandons o x₀ with ⟨r₀, hb⟩ | ⟨nfev, events, e, ha⟩
  · have hb' : (o.raise C).Begins x₀ (r₀.raise C) := begins_raise hb
    have hbeside : (o.finish debug r₀).toTurn.Beside (.offset C o.setup.settings)
        ((o.raise C).finish debug (r₀.raise C)).toTurn := beside_raise hoff hb debug
    obtain ⟨hpoint, hexit, hopt, hevents⟩ := minimizeFrom_of_begins debug hb
    obtain ⟨hpoint', hexit', hopt', hevents'⟩ := minimizeFrom_of_begins debug hb'
    refine ⟨?_, ?_, ?_, ?_, ?_, ?_⟩
    · rw [hevents, hevents', Event.calls_start, Event.calls_start,
        List.prefix_append_right_inj, List.prefix_append_right_inj]
      exact Turn.calls_of_beside hbeside
    · intro k r r' hr hr'
      obtain ⟨rfl, hr⟩ := reaches_raise hoff hr hr'
      exact ⟨rfl, Run.searches_raise hr⟩
    · intro _ hh
      obtain ⟨h, hh₁⟩ := history_of_begins debug hb hh
      obtain ⟨h', hh₂⟩ := history_of_begins debug hb' hh
      rw [hopt, hopt']
      exact ⟨h, h', hh₁, hh₂, Finish.history_of_beside hbeside hh₁ hh₂⟩
    · intro e he
      exact fails_of_beside hb hb' hbeside he
    · intro e he
      exact fails_of_beside hb' hb (Turn.beside_symm hbeside) he
    · intro hf hg
      obtain ⟨hrun, hend, hcalls⟩ := Finish.eq_of_beside hbeside hf hg
      rw [hpoint, hpoint', hexit, hexit', hopt, hopt', hevents, hevents', Event.calls_start,
        Event.calls_start, hrun, hend, hcalls]
      exact ⟨rfl, rfl, rfl, Exit.status_raise _, rfl, rfl, rfl⟩
  · have ha' : (o.raise C).Abandons x₀ nfev events e := abandons_raise ha
    rw [minimizeFrom_of_abandons debug ha, minimizeFrom_of_abandons debug ha']
    refine ⟨.inl List.prefix_rfl, ?_, ?_, ?_, ?_, ?_⟩
    · rintro k r r' ⟨r₀, hb, -⟩
      exact (not_begins_of_abandons ha hb).elim
    · rintro ⟨r₀, hb⟩
      exact (not_begins_of_abandons ha hb).elim
    · intro e he
      exact .inr ⟨he, rfl⟩
    · intro e he
      exact .inr ⟨he, rfl⟩
    · intro _ _
      exact ⟨rfl, rfl, rfl, rfl, rfl, rfl, rfl⟩

theorem minimize_raise_bowl :
    let o : Optimizer ℚ 2 := .ofQuadratic .bowl (.wolfe .standard)
    ∃ (a b : Report ℚ 2) (h h' : History ℚ 2), o.minimize false (.ofVector #v[3, 2]) = .ok a ∧
      (o.raise 7).minimize false (.ofVector #v[3, 2]) = .ok b ∧
      a.optimizer.memory.status = some .gradientTolerance ∧
      b.optimizer.memory.status = some .gradientTolerance ∧
      a.optimizer.memory.history = some h ∧ b.optimizer.memory.history = some h' ∧
      (h'.Extends (h.raise 7) ∨ (h.raise 7).Extends h') := by
  intro o
  have ha : (o.minimizeFrom false #v[3, 2]).optimizer.memory.status =
      some .gradientTolerance := by decide +kernel
  have hb : ((o.raise 7).minimizeFrom false #v[3, 2]).optimizer.memory.status =
      some .gradientTolerance := by decide +kernel
  obtain ⟨a, b, hm, hm', -, -, hhistory, -⟩ := minimize_raise o 7 false (.ofVector #v[3, 2])
    (.inl ⟨_, rfl⟩) (Candidate.toPoint_ofVector _)
  obtain rfl := eq_of_minimize (Candidate.toPoint_ofVector _) hm
  obtain rfl := eq_of_minimize (Candidate.toPoint_ofVector _) hm'
  obtain ⟨h, h', hh⟩ := hhistory ⟨_, .intro rfl rfl⟩ rfl
  exact ⟨_, _, h, h', hm, hm', ha, hb, hh⟩

end

end Optimizer
end Descent
