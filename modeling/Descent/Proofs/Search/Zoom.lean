import Descent.Proofs.Outcome
import Descent.Search.Zoom

/-! What one trial inside an interval does, and what holds of every step that zooming ends with. -/
namespace Descent
variable {K : Type}

/-- The sample is one of the line. -/
def Sample.LiesOn (l : Line K) (s : Sample K) : Prop := l.value s.step = .ok s.value

def Tangent.Touches (l : Line K) (t : Tangent K) : Prop :=
  t.toSample.LiesOn l ∧ l.slope t.step = .ok t.slope

/-- An accepted step has the slope it was accepted for, and that slope is small. -/
def Found.Sound [Scalar K] (l : Line K) (c : Conditions K) (f : Found K) : Prop :=
  f.toSample.LiesOn l ∧ ∀ d, f.ending = .accepted d → l.slope f.step = .ok d ∧ c.Flat d

/-- A trial inside an interval is the midpoint, or a tenth of the interval away from either end. -/
theorem cases_of_interpolate [Scalar K] {lo : Tangent K} {hi : Sample K} {t : K}
    (h : interpolate lo hi = .ok t) : t = lo.step + 0.5 * (hi.step - lo.step) ∨
      smaller lo.step hi.step + 0.1 * abs (hi.step - lo.step) ≤ t ∧
        t ≤ larger lo.step hi.step - 0.1 * abs (hi.step - lo.step) := by
  unfold interpolate at h
  extract_lets d midpoint denom jp at h
  split at h
  · exact .inl (Except.ok.inj h).symm
  · obtain ⟨q, -, h⟩ := Except.bind_eq_ok.mp h
    cases h
    split
    · rename_i hin
      simp only [Bool.and_eq_true, decide_eq_true_iff] at hin
      exact .inr hin.2
    · exact .inl rfl

namespace Zoom
variable {l : Line K} {c : Conditions K} {s : State K} {w : Verdict K} {found : Found K}
  {es : List (Probe K)}

theorem eq_of_giveUp (h : giveUp s = ⟨.ok found, es⟩) :
    found = ⟨⟨s.lo.toSample, s.nfev, s.njev⟩, .collapsed⟩ := by
  obtain ⟨_, _, _, -, h, -⟩ := Traced.bind_eq_ok.mp h
  exact (Traced.pure_eq_ok.mp h).1.symm

variable [Scalar K]

/-- A trial becomes the far end, is accepted, or becomes the better end. -/
inductive Moves (l : Line K) (c : Conditions K) (s : State K) : Verdict K → List (Probe K) → Prop
  | shortened {t v : K} (ht : interpolate s.lo s.hi = .ok t) (hv : l.value t = .ok v)
      (hr : c.TooHigh ⟨t, v⟩ ∨ v ≥ s.lo.value) :
      Moves l c s (.narrowed { s with hi := ⟨t, v⟩, nfev := s.nfev + 1 }) [.value t]
  | accepted {t v d : K} (ht : interpolate s.lo s.hi = .ok t) (hv : l.value t = .ok v)
      (hr : ¬ (c.TooHigh ⟨t, v⟩ ∨ v ≥ s.lo.value)) (hd : l.slope t = .ok d) (hf : c.Flat d) :
      Moves l c s (.accepted ⟨⟨⟨t, v⟩, s.nfev + 1, s.njev + 1⟩, .accepted d⟩) [.value t, .slope t]
  | moved {t v d : K} (ht : interpolate s.lo s.hi = .ok t) (hv : l.value t = .ok v)
      (hr : ¬ (c.TooHigh ⟨t, v⟩ ∨ v ≥ s.lo.value)) (hd : l.slope t = .ok d) (hf : ¬ c.Flat d) :
      Moves l c s
        (.narrowed ⟨⟨⟨t, v⟩, d⟩,
          if d * (s.hi.step - s.lo.step) ≥ 0.0 then s.lo.toSample else s.hi,
          s.nfev + 1, s.njev + 1⟩)
        [.value t, .slope t]

theorem moves_of_step (h : step l c s = ⟨.ok w, es⟩) : Moves l c s w es := by
  rw [step, Traced.lift_bind_eq_ok] at h
  obtain ⟨t, ht, h⟩ := h
  rw [Line.valueAt_bind_eq_ok] at h
  obtain ⟨v, es', hv, h, rfl⟩ := h
  dsimp only at h
  split at h
  · rename_i hr
    obtain ⟨rfl, rfl⟩ := Traced.pure_eq_ok.mp h
    exact .shortened ht hv hr
  · rename_i hr
    rw [Line.slopeAt_bind_eq_ok] at h
    obtain ⟨d, es', hd, h, rfl⟩ := h
    split at h
    · rename_i hf
      obtain ⟨rfl, rfl⟩ := Traced.pure_eq_ok.mp h
      exact .accepted ht hv hr hd hf
    · rename_i hf
      obtain ⟨rfl, rfl⟩ := Traced.pure_eq_ok.mp h
      exact .moved ht hv hr hd hf

/-- One trial asks for the value there, and for the slope at most. -/
theorem events_step {t : K} (h : interpolate s.lo s.hi = .ok t) :
    (step l c s).events = [.value t] ∨ (step l c s).events = [.value t, .slope t] := by
  rw [step, h, Traced.bind_ok rfl]
  cases hv : l.value t with
  | error e =>
    rw [Traced.bind_error hv]
    exact .inl rfl
  | ok v =>
    rw [Traced.bind_ok hv]
    dsimp only
    split
    · exact .inl rfl
    · refine .inr ?_
      cases hd : l.slope t with
      | error e =>
        rw [Traced.bind_error hd]
        rfl
      | ok d =>
        rw [Traced.bind_ok hd]
        split
        · rfl
        · rfl

/-- What every move keeps holds of the end of the zoom. -/
theorem run_keeps {I : State K → Prop} {P : Found K → Prop}
    (hm : ∀ {s s' es}, I s → Moves l c s (.narrowed s') es → I s')
    (ha : ∀ {s found es}, I s → Moves l c s (.accepted found) es → P found)
    (hg : ∀ {s}, I s → P ⟨⟨s.lo.toSample, s.nfev, s.njev⟩, .collapsed⟩)
    {budget : Nat} (hs : I s) (h : run l c budget s = ⟨.ok found, es⟩) : P found := by
  induction budget generalizing s es with
  | zero =>
    rw [eq_of_giveUp h]
    exact hg hs
  | succ budget ih =>
    rw [run, Traced.bind_eq_ok] at h
    obtain ⟨w, es₁, es₂, hw, h, -⟩ := h
    have hw := moves_of_step hw
    cases w with
    | accepted f =>
      obtain ⟨rfl, -⟩ := Traced.pure_eq_ok.mp h
      exact ha hs hw
    | narrowed s' =>
      have hs' := hm hs hw
      dsimp only at h
      split at h
      · rw [eq_of_giveUp h]
        exact hg hs'
      · exact ih hs' h

def State.LiesOn (l : Line K) (s : State K) : Prop := s.lo.Touches l ∧ s.hi.LiesOn l

theorem liesOn_moves {s' : State K} (hs : s.LiesOn l) (h : Moves l c s (.narrowed s') es) :
    s'.LiesOn l := by
  cases h with
  | shortened ht hv hr => exact ⟨hs.1, hv⟩
  | moved ht hv hr hd hf =>
    refine ⟨⟨hv, hd⟩, ?_⟩
    dsimp only
    split
    · exact hs.1.1
    · exact hs.2

theorem sound_run {budget : Nat} (hs : s.LiesOn l) (h : run l c budget s = ⟨.ok found, es⟩) :
    found.Sound l c := by
  apply run_keeps liesOn_moves _ _ hs h
  · intro s found es _ h
    cases h with
    | accepted ht hv hr hd hf =>
      refine ⟨hv, ?_⟩
      rintro _ ⟨⟩
      exact ⟨hd, hf⟩
  · intro s hs
    exact ⟨hs.1.1, by simp⟩

end Zoom
end Descent
