import Descent.Proofs.Search.Bracket
import Descent.Search.Brent
import Mathlib.Tactic.SplitIfs

/-! What one trial inside a bracket does, and what holds of every step the search ends with. -/
namespace Descent.Brent
variable {K : Type} [Scalar K] {l : Line K} {s s' : State K} {tol : K} {es : List (Probe K)}

/-- A proposal sets the next two steps and nothing else. -/
theorem eq_of_propose (h : s.propose tol = .ok s') : ∃ d e, s' = { s with d, e } := by
  unfold State.propose at h
  extract_lets tol1 r q p q' p' q'' at h
  split at h
  · split at h
    · cases h
      exact ⟨_, _, rfl⟩
    · obtain ⟨d, -, h⟩ := Except.bind_eq_ok.mp h
      cases h
      exact ⟨_, _, rfl⟩
  · cases h
    exact ⟨_, _, rfl⟩

/-- A proposal is a golden-section step, or the step to a vertex, made a shortest step if the vertex
is not well inside. -/
theorem step_of_propose (h : s.propose tol = .ok s') : s' = s.goldenStep ∨
    ∃ d, s'.d =
      if s.x + d - s.lo < 2.0 * s.least tol ∨ s.hi - (s.x + d) < 2.0 * s.least tol then
        copySign (s.least tol) (s.middle - s.x) else d := by
  unfold State.propose at h
  extract_lets tol1 r q p q' p' q'' at h
  split at h
  · split at h
    · cases h
      exact .inl rfl
    · obtain ⟨d, -, h⟩ := Except.bind_eq_ok.mp h
      cases h
      exact .inr ⟨d, rfl⟩
  · cases h
    exact .inl rfl

/-- One trial: a proposal, a value, and the cut. -/
theorem update_of_step (h : step l tol s = ⟨.ok s', es⟩) :
    ∃ t fu, s.propose tol = .ok t ∧ l.value (t.trial tol) = .ok fu ∧
      s' = t.update (t.trial tol) fu ∧ es = [.value (t.trial tol)] := by
  rw [step, Traced.lift_bind_eq_ok] at h
  obtain ⟨t, ht, h⟩ := h
  rw [Line.valueAt_bind_eq_ok] at h
  obtain ⟨fu, es', hv, h, rfl⟩ := h
  obtain ⟨rfl, rfl⟩ := Traced.pure_eq_ok.mp h
  exact ⟨t, fu, ht, hv, rfl, rfl⟩

/-- A trial that is no worse becomes the best point and leaves the one before as an end. -/
theorem update_of_le {u fu : K} (h : fu ≤ s.fx) :
    (s.update u fu).x = u ∧ (s.update u fu).fx = fu ∧
      (u ≥ s.x ∧ (s.update u fu).lo = s.x ∧ (s.update u fu).hi = s.hi ∨
        ¬ u ≥ s.x ∧ (s.update u fu).lo = s.lo ∧ (s.update u fu).hi = s.x) := by
  unfold State.update
  rw [if_pos h]
  refine ⟨rfl, rfl, ?_⟩
  dsimp only
  split
  · exact .inl ⟨‹_›, rfl, rfl⟩
  · exact .inr ⟨‹_›, rfl, rfl⟩

/-- A trial that is worse becomes an end. -/
theorem update_of_not_le {u fu : K} (h : ¬ fu ≤ s.fx) :
    (s.update u fu).x = s.x ∧ (s.update u fu).fx = s.fx ∧
      (u < s.x ∧ (s.update u fu).lo = u ∧ (s.update u fu).hi = s.hi ∨
        ¬ u < s.x ∧ (s.update u fu).lo = s.lo ∧ (s.update u fu).hi = u) := by
  unfold State.update
  rw [if_neg h]
  dsimp only
  by_cases hu : u < s.x
  · rw [if_pos hu]
    split_ifs <;> exact ⟨rfl, rfl, .inl ⟨hu, rfl, rfl⟩⟩
  · rw [if_neg hu]
    split_ifs <;> exact ⟨rfl, rfl, .inr ⟨hu, rfl, rfl⟩⟩

/-- The best point after a cut is the trial, if that is no worse. -/
theorem best_update (u fu : K) :
    ((s.update u fu).x = u ∧ (s.update u fu).fx = fu ∧ fu ≤ s.fx) ∨
      ((s.update u fu).x = s.x ∧ (s.update u fu).fx = s.fx ∧ ¬ fu ≤ s.fx) := by
  by_cases h : fu ≤ s.fx
  · obtain ⟨hx, hfx, -⟩ := update_of_le (u := u) h
    exact .inl ⟨hx, hfx, h⟩
  · obtain ⟨hx, hfx, -⟩ := update_of_not_le (u := u) h
    exact .inr ⟨hx, hfx, h⟩

/-- The second and the third point after a cut are two of the points before it and the trial. -/
theorem others_update {P : K → K → Prop} {u fu : K} (hx : P s.x s.fx) (hw : P s.w s.fw)
    (hv : P s.v s.fv) (hu : P u fu) :
    P (s.update u fu).w (s.update u fu).fw ∧ P (s.update u fu).v (s.update u fu).fv := by
  unfold State.update
  split
  · split <;> exact ⟨hx, hw⟩
  · dsimp only
    split
    · split <;> exact ⟨hu, hw⟩
    · split
      · split <;> exact ⟨hw, hu⟩
      · split <;> exact ⟨hw, hv⟩

/-- The best point after one trial is the trial or the one before. -/
theorem best_step (h : step l tol s = ⟨.ok s', es⟩) :
    (l.value s'.x = .ok s'.fx ∧ s'.fx ≤ s.fx) ∨ (s'.x = s.x ∧ s'.fx = s.fx) := by
  obtain ⟨t, fu, ht, hv, rfl, -⟩ := update_of_step h
  obtain ⟨d, e, rfl⟩ := eq_of_propose ht
  obtain ⟨hx, hfx, hle⟩ | ⟨hx, hfx, -⟩ := best_update (s := { s with d, e }) _ fu
  · left
    rw [hx, hfx]
    exact ⟨hv, hle⟩
  · exact .inr ⟨hx, hfx⟩

/-- What every trial keeps holds of the step that is returned. -/
theorem run_keeps {I : State K → Prop} {o : Options K}
    (hm : ∀ {s s' es}, I s → ¬ s.Converged o.tol → step l o.tol s = ⟨.ok s', es⟩ → I s')
    {r : Step K} {budget nfev : Nat} (hs : I s) (h : run l o budget s nfev = ⟨.ok r, es⟩) :
    ∃ t, I t ∧ r.toSample = ⟨t.x, t.fx⟩ := by
  induction budget generalizing s nfev es with
  | zero =>
    rw [run, Traced.bind_eq_ok] at h
    obtain ⟨_, _, _, -, h, -⟩ := h
    obtain ⟨rfl, -⟩ := Traced.pure_eq_ok.mp h
    exact ⟨s, hs, rfl⟩
  | succ budget ih =>
    rw [run] at h
    split at h
    · obtain ⟨rfl, -⟩ := Traced.pure_eq_ok.mp h
      exact ⟨s, hs, rfl⟩
    · rename_i hc
      rw [Traced.bind_eq_ok] at h
      obtain ⟨s', es₁, es₂, hstep, h, -⟩ := h
      exact ih (hm hs hc hstep) h

theorem liesOn_step (hs : l.value s.x = .ok s.fx) (h : step l tol s = ⟨.ok s', es⟩) :
    l.value s'.x = .ok s'.fx := by
  obtain ⟨hv, -⟩ | ⟨hx, hfx⟩ := best_step h
  · exact hv
  · rw [hx, hfx, hs]

theorem liesOn_search {a b c fb : K} {o : Options K} {r : Step K} (hb : l.value b = .ok fb)
    (h : search l a b c fb o = ⟨.ok r, es⟩) : r.toSample.LiesOn l := by
  obtain ⟨t, ht, hr⟩ := run_keeps (I := fun s => l.value s.x = .ok s.fx)
    (fun hs _ => liesOn_step hs) hb h
  rw [hr]
  exact ht

theorem bracket_of_search {o : Options K} {r : Step K} (h : bracketAndSearch l o = ⟨.ok r, es⟩) :
    ∃ s nfev found es₁ es₂, Bracket.search l 0.0 1.0 .standard = ⟨.ok (s, nfev), es₁⟩ ∧
      search l s.a s.b s.c s.fb o = ⟨.ok found, es₂⟩ ∧
      r = { found with nfev := nfev + found.nfev } ∧ es = es₁ ++ es₂ := by
  rw [bracketAndSearch, Traced.bind_eq_ok] at h
  obtain ⟨⟨s, nfev⟩, es₁, es₂, hb, h, rfl⟩ := h
  dsimp only at h
  rw [Traced.bind_eq_ok] at h
  obtain ⟨found, es₂, es₃, hf, h, rfl⟩ := h
  obtain ⟨rfl, rfl⟩ := Traced.pure_eq_ok.mp h
  exact ⟨s, nfev, found, es₁, es₂, hb, hf, rfl, by simp⟩

theorem liesOn_bracketAndSearch {o : Options K} {r : Step K}
    (h : bracketAndSearch l o = ⟨.ok r, es⟩) : r.toSample.LiesOn l := by
  obtain ⟨s, nfev, found, es₁, es₂, hb, hf, rfl, -⟩ := bracket_of_search h
  exact liesOn_search (r := found) (Bracket.liesOn_search hb).b hf

end Descent.Brent
