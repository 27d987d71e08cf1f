import Descent.Proofs.Search.Wolfe

/-! Steps with a property that every trial of the Wolfe search inherits from the steps before it. -/
namespace Descent
variable {K : Type} [Scalar K] {F : K → Prop} {l : Line K} {c : Conditions K}
  {es : List (Probe K)} {found : Found K}

/-- Doubled steps have the property, and trials inside an interval whose ends have it. -/
structure Inherited (F : K → Prop) : Prop where
  double {t : K} (h : F t) : F (t * 2.0)
  inside {lo : Tangent K} {hi : Sample K} {t : K} (hlo : F lo.step) (hhi : F hi.step)
    (h : interpolate lo hi = .ok t) : F t

/-- A step with the property and with sufficient decrease. -/
def Conditions.Admits (c : Conditions K) (F : K → Prop) (s : Sample K) : Prop :=
  F s.step ∧ ¬ c.TooHigh s

namespace Zoom
variable {s s' : State K}

/-- The better end is admitted, and the other one has the property. -/
def State.Admitted (F : K → Prop) (c : Conditions K) (s : State K) : Prop :=
  c.Admits F s.lo.toSample ∧ F s.hi.step

theorem admitted_moves (hF : Inherited F) (hs : s.Admitted F c)
    (h : Moves l c s (.narrowed s') es) : s'.Admitted F c := by
  cases h with
  | shortened ht hv hr => exact ⟨hs.1, hF.inside hs.1.1 hs.2 ht⟩
  | moved ht hv hr hd hf =>
    refine ⟨⟨hF.inside hs.1.1 hs.2 ht, fun hh => hr (.inl hh)⟩, ?_⟩
    dsimp only
    split
    · exact hs.1.1
    · exact hs.2

theorem admits_run (hF : Inherited F) {budget : Nat} (hs : s.Admitted F c)
    (h : run l c budget s = ⟨.ok found, es⟩) : c.Admits F found.toSample := by
  apply run_keeps (admitted_moves hF) _ _ hs h
  · intro s found es hs h
    cases h with
    | accepted ht hv hr hd hf => exact ⟨hF.inside hs.1.1 hs.2 ht, fun hh => hr (.inl hh)⟩
  · intro s hs
    exact hs.1

end Zoom

namespace Wolfe

namespace Doubling
variable {s s' : State K}

/-- The last step is admitted, and the next trial has the property. -/
def State.Admitted (F : K → Prop) (c : Conditions K) (s : State K) : Prop :=
  c.Admits F s.last.toSample ∧ F s.trial

theorem admitted_moves (hF : Inherited F) (hs : s.Admitted F c)
    (h : Moves l c s (.descending s') es) : s'.Admitted F c := by
  cases h with
  | descending hv hr hd hf hp => exact ⟨⟨hs.2, fun hh => hr (.inl hh)⟩, hF.double hs.2⟩

theorem admitted_bracketed {z : Zoom.State K} (hs : s.Admitted F c)
    (h : Moves l c s (.bracketed z) es) : z.Admitted F c := by
  cases h with
  | high hv hr => exact hs
  | rising hv hr hd hf hp => exact ⟨⟨hs.2, fun hh => hr (.inl hh)⟩, hs.1.1⟩

theorem admits_run (hF : Inherited F) {maxZoom budget : Nat} (hs : s.Admitted F c)
    (h : run l c maxZoom budget s = ⟨.ok found, es⟩) : c.Admits F found.toSample := by
  apply run_keeps (admitted_moves hF) admitted_bracketed (Zoom.admits_run hF) _ _ hs h
  · intro s found es hs h
    cases h with
    | accepted hv hr hd hf => exact ⟨hs.2, fun hh => hr (.inl hh)⟩
  · intro s hs
    exact hs.1

end Doubling

variable {o : Options K}

theorem admits_find (hF : Inherited F)
    (hs : ∀ {c trial}, Starts l o c trial → c.Admits F ⟨0.0, c.value⟩ ∧ F trial)
    (h : find l o = ⟨.ok (c, found), es⟩) : c.Admits F found.toSample := by
  obtain ⟨trial, es', hstart, hf, -⟩ := starts_of_find h
  exact Doubling.admits_run (s := ⟨⟨⟨0.0, c.value⟩, c.slope⟩, trial, true, 1, 1⟩) hF
    (hs hstart) hf

/-- A secant step is admitted if it has the property because it is tried. -/
theorem admits_refines {s r : Step K} {d : K}
    (hr : ∀ {t}, ¬ (!isFinite t || t ≤ 0.0 || t == s.step) → F t) (hs : c.Admits F s.toSample)
    (h : Refines l c s d r es) : c.Admits F r.toSample := by
  cases h with
  | flat => exact hs
  | useless => exact hs
  | high => exact hs
  | steeper => exact hs
  | taken hd ht hu hv hh hd' hle => exact ⟨hr hu, hh⟩

/-- A Wolfe search ends with an admitted step, for the value and the slope at its start. -/
theorem admits_search {r : Step K} (hF : Inherited F)
    (hs : ∀ {c trial}, Starts l o c trial → c.Admits F ⟨0.0, c.value⟩ ∧ F trial)
    (hr : ∀ {t s : K}, ¬ (!isFinite t || t ≤ 0.0 || t == s) → F t)
    (h : search l o = ⟨.ok r, es⟩) :
    ∃ c trial, Starts l o c trial ∧ c.Admits F r.toSample := by
  obtain ⟨c, found, es₁, es₂, hf, -, hr'⟩ := find_of_search h
  have hc := admits_find hF hs hf
  obtain ⟨trial, es', hstart, -, -⟩ := starts_of_find hf
  refine ⟨c, trial, hstart, ?_⟩
  rcases hr' with ⟨d, -, hr'⟩ | ⟨-, rfl, -⟩
  · exact admits_refines hr hc hr'
  · exact hc

end Wolfe
end Descent
