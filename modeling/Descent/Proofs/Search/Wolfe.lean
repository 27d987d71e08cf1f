import Descent.Proofs.Search.Zoom
import Descent.Search.Wolfe

/-! What one doubling and the secant step do, and what holds of every step the Wolfe search ends
with. -/
namespace Descent.Wolfe
variable {K : Type} [Scalar K] {l : Line K} {c : Conditions K} {es : List (Probe K)}

namespace Doubling
variable {s : State K} {w : Verdict K} {found : Found K}

/-- A trial is too high, is accepted, rises, or descends further. -/
inductive Moves (l : Line K) (c : Conditions K) (s : State K) : Verdict K → List (Probe K) → Prop
  | high {v : K} (hv : l.value s.trial = .ok v)
      (hr : c.TooHigh ⟨s.trial, v⟩ ∨ (s.first = false ∧ v ≥ s.last.value)) :
      Moves l c s (.bracketed ⟨s.last, ⟨s.trial, v⟩, s.nfev + 1, s.njev⟩) [.value s.trial]
  | accepted {v d : K} (hv : l.value s.trial = .ok v)
      (hr : ¬ (c.TooHigh ⟨s.trial, v⟩ ∨ (s.first = false ∧ v ≥ s.last.value)))
      (hd : l.slope s.trial = .ok d) (hf : c.Flat d) :
      Moves l c s (.accepted ⟨⟨⟨s.trial, v⟩, s.nfev + 1, s.njev + 1⟩, .accepted d⟩)
        [.value s.trial, .slope s.trial]
  | rising {v d : K} (hv : l.value s.trial = .ok v)
      (hr : ¬ (c.TooHigh ⟨s.trial, v⟩ ∨ (s.first = false ∧ v ≥ s.last.value)))
      (hd : l.slope s.trial = .ok d) (hf : ¬ c.Flat d) (hp : d ≥ 0.0) :
      Moves l c s
        (.bracketed ⟨⟨⟨s.trial, v⟩, d⟩, s.last.toSample, s.nfev + 1, s.njev + 1⟩)
        [.value s.trial, .slope s.trial]
  | descending {v d : K} (hv : l.value s.trial = .ok v)
      (hr : ¬ (c.TooHigh ⟨s.trial, v⟩ ∨ (s.first = false ∧ v ≥ s.last.value)))
      (hd : l.slope s.trial = .ok d) (hf : ¬ c.Flat d) (hp : ¬ d ≥ 0.0) :
      Moves l c s
        (.descending ⟨⟨⟨s.trial, v⟩, d⟩, s.trial * 2.0, false, s.nfev + 1, s.njev + 1⟩)
        [.value s.trial, .slope s.trial]

theorem moves_of_step (h : step l c s = ⟨.ok w, es⟩) : Moves l c s w es := by
  rw [step, Line.valueAt_bind_eq_ok] at h
  obtain ⟨v, es', hv, h, rfl⟩ := h
  dsimp only at h
  split at h
  · rename_i hr
    obtain ⟨rfl, rfl⟩ := Traced.pure_eq_ok.mp h
    exact .high hv hr
  · rename_i hr
    rw [Line.slopeAt_bind_eq_ok] at h
    obtain ⟨d, es', hd, h, rfl⟩ := h
    split at h
    · rename_i hf
      obtain ⟨rfl, rfl⟩ := Traced.pure_eq_ok.mp h
      exact .accepted hv hr hd hf
    · rename_i hf
      split at h
      · rename_i hp
        obtain ⟨rfl, rfl⟩ := Traced.pure_eq_ok.mp h
        exact .rising hv hr hd hf hp
      · rename_i hp
        obtain ⟨rfl, rfl⟩ := Traced.pure_eq_ok.mp h
        exact .descending hv hr hd hf hp

/-- What every doubling keeps holds of the end of the search, if zooming keeps it too. -/
theorem run_keeps {I : State K → Prop} {J : Zoom.State K → Prop} {P : Found K → Prop}
    {maxZoom : Nat}
    (hd : ∀ {s s' es}, I s → Moves l c s (.descending s') es → I s')
    (hb : ∀ {s z es}, I s → Moves l c s (.bracketed z) es → J z)
    (hz : ∀ {z found es}, J z → Zoom.run l c maxZoom z = ⟨.ok found, es⟩ → P found)
    (ha : ∀ {s found es}, I s → Moves l c s (.accepted found) es → P found)
    (he : ∀ {s}, I s → P ⟨⟨s.last.toSample, s.nfev, s.njev⟩, .exhausted⟩)
    {budget : Nat} (hs : I s) (h : run l c maxZoom budget s = ⟨.ok found, es⟩) : P found := by
  induction budget generalizing s es with
  | zero =>
    obtain ⟨rfl, -⟩ := Traced.pure_eq_ok.mp h
    exact he hs
  | succ budget ih =>
    rw [run, Traced.bind_eq_ok] at h
    obtain ⟨w, es₁, es₂, hw, h, -⟩ := h
    have hw := moves_of_step hw
    cases w with
    | accepted f =>
      obtain ⟨rfl, -⟩ := Traced.pure_eq_ok.mp h
      exact ha hs hw
    | bracketed z => exact hz (hb hs hw) h
    | descending s' => exact ih (hd hs hw) h

theorem touches_moves {s' : State K} (h : Moves l c s (.descending s') es) : s'.last.Touches l := by
  cases h with
  | descending hv hr hd hf hp => exact ⟨hv, hd⟩

theorem liesOn_moves {z : Zoom.State K} (hs : s.last.Touches l)
    (h : Moves l c s (.bracketed z) es) : z.LiesOn l := by
  cases h with
  | high hv hr => exact ⟨hs, hv⟩
  | rising hv hr hd hf hp => exact ⟨⟨hv, hd⟩, hs.1⟩

theorem sound_run {maxZoom budget : Nat} (hs : s.last.Touches l)
    (h : run l c maxZoom budget s = ⟨.ok found, es⟩) : found.Sound l c := by
  apply run_keeps (fun _ => touches_moves) liesOn_moves Zoom.sound_run _ _ hs h
  · intro s found es _ h
    cases h with
    | accepted hv hr hd hf =>
      refine ⟨hv, ?_⟩
      rintro _ ⟨⟩
      exact ⟨hd, hf⟩
  · intro s hs
    exact ⟨hs.1, by simp⟩

end Doubling

/-- The secant step is not tried, is tried and refused, or is taken. -/
inductive Refines (l : Line K) (c : Conditions K) (s : Step K) (d : K) :
    Step K → List (Probe K) → Prop
  | flat (h : d == 0.0 || d ≤ c.slope) : Refines l c s d s []
  | useless {t : K} (h : ¬ (d == 0.0 || d ≤ c.slope))
      (ht : quotient (s.step * c.slope) (c.slope - d) = .ok t)
      (hu : !isFinite t || t ≤ 0.0 || t == s.step) : Refines l c s d s []
  | high {t v : K} (h : ¬ (d == 0.0 || d ≤ c.slope))
      (ht : quotient (s.step * c.slope) (c.slope - d) = .ok t)
      (hu : ¬ (!isFinite t || t ≤ 0.0 || t == s.step)) (hv : l.value t = .ok v)
      (hr : c.TooHigh ⟨t, v⟩) : Refines l c s d { s with nfev := s.nfev + 1 } [.value t]
  | steeper {t v d' : K} (h : ¬ (d == 0.0 || d ≤ c.slope))
      (ht : quotient (s.step * c.slope) (c.slope - d) = .ok t)
      (hu : ¬ (!isFinite t || t ≤ 0.0 || t == s.step)) (hv : l.value t = .ok v)
      (hr : ¬ c.TooHigh ⟨t, v⟩) (hd : l.slope t = .ok d') (hs : abs d' > abs d) :
      Refines l c s d { s with nfev := s.nfev + 1, njev := s.njev + 1 } [.value t, .slope t]
  | taken {t v d' : K} (h : ¬ (d == 0.0 || d ≤ c.slope))
      (ht : quotient (s.step * c.slope) (c.slope - d) = .ok t)
      (hu : ¬ (!isFinite t || t ≤ 0.0 || t == s.step)) (hv : l.value t = .ok v)
      (hr : ¬ c.TooHigh ⟨t, v⟩) (hd : l.slope t = .ok d') (hs : ¬ abs d' > abs d) :
      Refines l c s d ⟨⟨t, v⟩, s.nfev + 1, s.njev + 1⟩ [.value t, .slope t]

theorem refines_of_refine {s r : Step K} {d : K} (h : refine l c s d = ⟨.ok r, es⟩) :
    Refines l c s d r es := by
  rw [refine] at h
  split at h
  · rename_i hd
    obtain ⟨rfl, rfl⟩ := Traced.pure_eq_ok.mp h
    exact .flat hd
  · rename_i hd
    rw [Traced.lift_bind_eq_ok] at h
    obtain ⟨t, ht, h⟩ := h
    split at h
    · rename_i hu
      obtain ⟨rfl, rfl⟩ := Traced.pure_eq_ok.mp h
      exact .useless hd ht hu
    · rename_i hu
      rw [Line.valueAt_bind_eq_ok] at h
      obtain ⟨v, es', hv, h, rfl⟩ := h
      dsimp only at h
      split at h
      · rename_i hr
        obtain ⟨rfl, rfl⟩ := Traced.pure_eq_ok.mp h
        exact .high hd ht hu hv hr
      · rename_i hr
        rw [Line.slopeAt_bind_eq_ok] at h
        obtain ⟨d', es', hd', h, rfl⟩ := h
        obtain ⟨rfl, rfl⟩ := Traced.pure_eq_ok.mp h
        split
        · exact .steeper hd ht hu hv hr hd' ‹_›
        · exact .taken hd ht hu hv hr hd' ‹_›

theorem liesOn_refines {s r : Step K} {d : K} (hs : s.toSample.LiesOn l)
    (h : Refines l c s d r es) : r.toSample.LiesOn l := by
  cases h with
  | flat => exact hs
  | useless => exact hs
  | high => exact hs
  | steeper => exact hs
  | taken hd ht hu hv hr hd' hs => exact hv

variable {o : Options K}

/-- The line descends at its start, and a first trial step is known. -/
structure Starts (l : Line K) (o : Options K) (c : Conditions K) (trial : K) : Prop where
  ordered : Ordered o.c1 o.c2
  value : l.value 0.0 = .ok c.value
  slope : l.slope 0.0 = .ok c.slope
  descends : ¬ c.slope ≥ 0.0
  c1 : c.c1 = o.c1
  c2 : c.c2 = o.c2
  first : match o.previous with
    | some p => firstStep c.value c.slope p = .ok trial
    | none => trial = o.alpha0

/-- What holds of a first step that is given, and of any that is derived, holds of the first trial. -/
theorem Starts.trial_of {P : K → Prop} {trial : K} (h : Starts l o c trial)
    (ha : o.previous = none → P o.alpha0)
    (hp : ∀ p, firstStep c.value c.slope p = .ok trial → P trial) : P trial := by
  have ht := h.first
  cases ho : o.previous with
  | none =>
    rw [ho] at ht
    rw [ht]
    exact ha ho
  | some p =>
    rw [ho] at ht
    exact hp p ht

theorem starts_of_find {found : Found K} (h : find l o = ⟨.ok (c, found), es⟩) :
    ∃ trial es', Starts l o c trial ∧
      Doubling.run l c o.maxZoom.toNat o.maxIter.toNat
        ⟨⟨⟨0.0, c.value⟩, c.slope⟩, trial, true, 1, 1⟩ = ⟨.ok found, es'⟩ ∧
      es = .value 0.0 :: .slope 0.0 :: es' := by
  unfold find at h
  dsimp only at h
  split at h
  · cases h
  rename_i ho
  rw [Line.valueAt_bind_eq_ok] at h
  obtain ⟨v, es', hv, h, rfl⟩ := h
  rw [Line.slopeAt_bind_eq_ok] at h
  obtain ⟨d, es', hd, h, rfl⟩ := h
  split at h
  · cases h
  rename_i hn
  have ht : ∃ trial, (match o.previous with
        | some p => firstStep v d p = .ok trial
        | none => trial = o.alpha0) ∧
      (do
        let found ← Doubling.run l ⟨v, d, o.c1, o.c2⟩ o.maxZoom.toNat o.maxIter.toNat
          ⟨⟨⟨0.0, v⟩, d⟩, trial, true, 1, 1⟩
        return (⟨v, d, o.c1, o.c2⟩, found)) = (⟨.ok (c, found), es'⟩ : Search K _) := by
    cases hp : o.previous with
    | some p =>
      rw [hp] at h
      exact Traced.lift_bind_eq_ok.mp h
    | none =>
      rw [hp] at h
      exact ⟨o.alpha0, rfl, h⟩
  clear h
  obtain ⟨trial, ht, h⟩ := ht
  rw [Traced.bind_eq_ok] at h
  obtain ⟨f, es₁, es₂, hf, h, rfl⟩ := h
  rw [Traced.pure_eq_ok] at h
  obtain ⟨h, rfl⟩ := h
  cases h
  exact ⟨trial, es₁, ⟨Decidable.not_not.mp ho, hv, hd, hn, rfl, rfl, ht⟩, hf, by simp⟩

theorem sound_find {found : Found K} (h : find l o = ⟨.ok (c, found), es⟩) : found.Sound l c := by
  obtain ⟨trial, es', hs, hf, -⟩ := starts_of_find h
  exact Doubling.sound_run (s := ⟨⟨⟨0.0, c.value⟩, c.slope⟩, trial, true, 1, 1⟩)
    ⟨hs.value, hs.slope⟩ hf

/-- The search ends as it is found, or with the secant step if the step found is accepted. -/
theorem find_of_search {r : Step K} (h : search l o = ⟨.ok r, es⟩) :
    ∃ c found es₁ es₂, find l o = ⟨.ok (c, found), es₁⟩ ∧ es = es₁ ++ es₂ ∧
      ((∃ d, found.ending = .accepted d ∧ Refines l c found.toStep d r es₂) ∨
        ((∀ d, found.ending ≠ .accepted d) ∧ r = found.toStep ∧ es₂ = [])) := by
  rw [search, Traced.bind_eq_ok] at h
  obtain ⟨⟨c, found⟩, es₁, es₂, hf, h, rfl⟩ := h
  refine ⟨c, found, es₁, es₂, hf, rfl, ?_⟩
  dsimp only at h
  split at h
  · rename_i d he
    exact .inl ⟨d, he, refines_of_refine h⟩
  all_goals
    rename_i he
    obtain ⟨rfl, rfl⟩ := Traced.pure_eq_ok.mp h
    exact .inr ⟨by simp [he], rfl, rfl⟩

theorem liesOn_search {r : Step K} (h : search l o = ⟨.ok r, es⟩) : r.toSample.LiesOn l := by
  obtain ⟨c, found, es₁, es₂, hf, -, ⟨d, -, hr⟩ | ⟨-, rfl, -⟩⟩ := find_of_search h
  · exact liesOn_refines (sound_find hf).1 hr
  · exact (sound_find hf).1

end Descent.Wolfe
