import Descent.Proofs.Search.Brent
import Descent.Proofs.Search.Wolfe

/-! The states that the loops of a search go through, with the probes so far. -/
namespace Descent

/-- So many steps in a row, with the events of all of them. -/
inductive Trail {σ E : Type} (R : σ → σ → List E → Prop) (s : σ) : Nat → σ → List E → Prop
  | refl : Trail R s 0 s []
  | tail {k : Nat} {s' s'' : σ} {es es' : List E} (h : Trail R s k s' es) (hr : R s' s'' es') :
      Trail R s (k + 1) s'' (es ++ es')

/-- A loop takes its steps from the front. -/
theorem Trail.head {σ E : Type} {R : σ → σ → List E → Prop} {s s' s'' : σ} {k : Nat}
    {es es' : List E} (hr : R s s' es) (h : Trail R s' k s'' es') :
    Trail R s (k + 1) s'' (es ++ es') := by
  induction h with
  | refl =>
    rw [List.append_nil]
    exact .tail .refl hr
  | tail _ hr' ih =>
    rw [← List.append_assoc]
    exact .tail ih hr'

/-- What every step keeps holds all along. -/
theorem Trail.keeps {σ E : Type} {R : σ → σ → List E → Prop} {I : σ → List E → Prop} {s s' : σ}
    {k : Nat} {es : List E} (hr : ∀ {s s' es es'}, I s es → R s s' es' → I s' (es ++ es'))
    (hs : I s []) (h : Trail R s k s' es) : I s' es := by
  induction h with
  | refl => exact hs
  | tail _ hstep ih => exact hr ih hstep

variable {K : Type} [Scalar K] {l : Line K} {c : Conditions K} {es es' : List (Probe K)}
  {found : Found K} {budget : Nat}

namespace Zoom
variable {s s' : State K}

/-- A trial that is not accepted. -/
def Narrows (l : Line K) (c : Conditions K) (s s' : State K) (es : List (Probe K)) : Prop :=
  Moves l c s (.narrowed s') es

/-- The interval after so many trials, none of which is accepted. -/
def after (l : Line K) (c : Conditions K) : Nat → State K → Option (State K)
  | 0, s => some s
  | k + 1, s =>
    match (step l c s).outcome with
    | .ok (.narrowed s') => after l c k s'
    | .ok (.accepted _) | .error _ => none

theorem trail_of_after {k : Nat} (h : after l c k s = some s') :
    ∃ es, Trail (Narrows l c) s k s' es := by
  induction k generalizing s with
  | zero =>
    cases h
    exact ⟨[], .refl⟩
  | succ k ih =>
    rw [after] at h
    split at h
    · rename_i s'' ho
      obtain ⟨es, ht⟩ := ih h
      exact ⟨_, ht.head (moves_of_step (Traced.eq_of_outcome ho))⟩
    all_goals cases h

theorem after_succ {k : Nat} (h : (step l c s).outcome = .ok (.narrowed s')) :
    after l c (k + 1) s = after l c k s' := by
  rw [after, h]

/-- Each probe of a zoom belongs to a trial in an interval that it has come to, whether or not it
succeeds; else it is the notice at its end. -/
theorem cases_of_mem_run {p : Probe K} (hp : p ∈ (run l c budget s).events) :
    (∃ m, p = .notice m) ∨
      ∃ k s', k < budget ∧ after l c k s = some s' ∧ p ∈ (step l c s').events := by
  induction budget generalizing s with
  | zero => exact .inl ⟨_, List.mem_singleton.mp hp⟩
  | succ budget ih =>
    rw [run] at hp
    cases ho : (step l c s).outcome with
    | error e =>
      rw [Traced.bind_error ho] at hp
      exact .inr ⟨0, s, Nat.succ_pos budget, rfl, hp⟩
    | ok w =>
      rw [Traced.bind_ok ho] at hp
      rcases List.mem_append.mp hp with hp | hp
      · exact .inr ⟨0, s, Nat.succ_pos budget, rfl, hp⟩
      cases w with
      | accepted found => cases hp
      | narrowed s' =>
        dsimp only at hp
        split at hp
        · exact .inl ⟨_, List.mem_singleton.mp hp⟩
        · rcases ih hp with hn | ⟨k, s'', hk, ha, hp⟩
          · exact .inl hn
          · exact .inr ⟨k + 1, s'', Nat.succ_lt_succ hk, (after_succ ho).trans ha, hp⟩

/-- A trial is accepted, or the interval is given up: its budget is used, or it is too small. -/
inductive Ends (l : Line K) (c : Conditions K) (s : State K) (budget : Nat) :
    Found K → List (Probe K) → Prop
  | accepted {k : Nat} {s' : State K} {found : Found K} {es es' : List (Probe K)} (hk : k < budget)
      (ht : Trail (Narrows l c) s k s' es) (hm : Moves l c s' (.accepted found) es') :
      Ends l c s budget found (es ++ es')
  | givenUp {k : Nat} {s' : State K} {es : List (Probe K)} (hk : k ≤ budget)
      (he : k = budget ∨ s'.Collapsed) (ht : Trail (Narrows l c) s k s' es) :
      Ends l c s budget ⟨⟨s'.lo.toSample, s'.nfev, s'.njev⟩, .collapsed⟩
        (es ++ [.notice (.zoomStopped s'.lo.step)])

theorem Ends.head (hn : Narrows l c s s' es) (h : Ends l c s' budget found es') :
    Ends l c s (budget + 1) found (es ++ es') := by
  cases h with
  | accepted hk ht hm =>
    rw [← List.append_assoc]
    exact .accepted (Nat.succ_lt_succ hk) (ht.head hn) hm
  | givenUp hk he ht =>
    rw [← List.append_assoc]
    exact .givenUp (Nat.succ_le_succ hk) (he.imp_left (congrArg (· + 1))) (ht.head hn)

theorem ends_of_run (h : run l c budget s = ⟨.ok found, es⟩) : Ends l c s budget found es := by
  induction budget generalizing s es with
  | zero =>
    cases h
    exact .givenUp (Nat.le_refl 0) (.inl rfl) .refl
  | succ budget ih =>
    rw [run, Traced.bind_eq_ok] at h
    obtain ⟨w, es₁, es₂, hw, h, rfl⟩ := h
    have hw := moves_of_step hw
    cases w with
    | accepted f =>
      obtain ⟨rfl, rfl⟩ := Traced.pure_eq_ok.mp h
      rw [List.append_nil]
      exact .accepted (Nat.succ_pos budget) .refl hw
    | narrowed s' =>
      dsimp only at h
      split at h
      · rename_i hc
        cases h
        exact .givenUp (Nat.succ_le_succ (Nat.zero_le budget)) (.inr hc) (.tail .refl hw)
      · exact (ih h).head hw

end Zoom

namespace Wolfe

namespace Doubling
variable {s s' : State K} {maxZoom : Nat}

/-- A trial after which the step is doubled. -/
def Descends (l : Line K) (c : Conditions K) (s s' : State K) (es : List (Probe K)) : Prop :=
  Moves l c s (.descending s') es

/-- A trial is accepted, or zooming begins, or all trials descend. -/
inductive Ends (l : Line K) (c : Conditions K) (maxZoom : Nat) (s : State K) (budget : Nat) :
    Found K → List (Probe K) → Prop
  | accepted {k : Nat} {s' : State K} {found : Found K} {es es' : List (Probe K)} (hk : k < budget)
      (ht : Trail (Descends l c) s k s' es) (hm : Moves l c s' (.accepted found) es') :
      Ends l c maxZoom s budget found (es ++ es')
  | bracketed {k : Nat} {s' : State K} {z : Zoom.State K} {found : Found K}
      {es es' es'' : List (Probe K)} (hk : k < budget) (ht : Trail (Descends l c) s k s' es)
      (hm : Moves l c s' (.bracketed z) es') (hz : Zoom.Ends l c z maxZoom found es'') :
      Ends l c maxZoom s budget found (es ++ (es' ++ es''))
  | exhausted {s' : State K} {es : List (Probe K)} (ht : Trail (Descends l c) s budget s' es) :
      Ends l c maxZoom s budget ⟨⟨s'.last.toSample, s'.nfev, s'.njev⟩, .exhausted⟩ es

theorem Ends.head (hd : Descends l c s s' es) (h : Ends l c maxZoom s' budget found es') :
    Ends l c maxZoom s (budget + 1) found (es ++ es') := by
  cases h with
  | accepted hk ht hm =>
    rw [← List.append_assoc]
    exact .accepted (Nat.succ_lt_succ hk) (ht.head hd) hm
  | bracketed hk ht hm hz =>
    rw [← List.append_assoc]
    exact .bracketed (Nat.succ_lt_succ hk) (ht.head hd) hm hz
  | exhausted ht => exact .exhausted (ht.head hd)

theorem ends_of_run (h : run l c maxZoom budget s = ⟨.ok found, es⟩) :
    Ends l c maxZoom s budget found es := by
  induction budget generalizing s es with
  | zero =>
    obtain ⟨rfl, rfl⟩ := Traced.pure_eq_ok.mp h
    exact .exhausted .refl
  | succ budget ih =>
    rw [run, Traced.bind_eq_ok] at h
    obtain ⟨w, es₁, es₂, hw, h, rfl⟩ := h
    have hw := moves_of_step hw
    cases w with
    | accepted f =>
      obtain ⟨rfl, rfl⟩ := Traced.pure_eq_ok.mp h
      rw [List.append_nil]
      exact .accepted (Nat.succ_pos budget) .refl hw
    | bracketed z => exact .bracketed (Nat.succ_pos budget) .refl hw (Zoom.ends_of_run h)
    | descending s' => exact (ih h).head hw

/-- The verdict on the first trial that does not descend; if all of them descend, where they lead. -/
def verdict (l : Line K) (c : Conditions K) : Nat → State K → Search K (Verdict K)
  | 0, s => return .descending s
  | budget + 1, s => do
    match ← step l c s with
    | .accepted found => return .accepted found
    | .bracketed z => return .bracketed z
    | .descending s => verdict l c budget s

/-- What the search does after its doublings. -/
def Verdict.conclude (l : Line K) (c : Conditions K) (maxZoom : Nat) : Verdict K → Search K (Found K)
  | .accepted found => return found
  | .bracketed z => Zoom.run l c maxZoom z
  | .descending s => return ⟨⟨s.last.toSample, s.nfev, s.njev⟩, .exhausted⟩

/-- The interval in which the search comes to zoom, if it does. -/
def interval? (l : Line K) (c : Conditions K) (budget : Nat) (s : State K) :
    Option (Zoom.State K) :=
  match (verdict l c budget s).outcome with
  | .ok (.bracketed z) => some z
  | .ok (.accepted _) | .ok (.descending _) | .error _ => none

theorem verdict_of_interval? {z : Zoom.State K} (h : interval? l c budget s = some z) :
    ∃ es, verdict l c budget s = ⟨.ok (.bracketed z), es⟩ := by
  unfold interval? at h
  split at h
  · rename_i ho
    cases h
    exact ⟨_, Traced.eq_of_outcome ho⟩
  all_goals cases h

/-- Zooming begins where the doublings end with an interval, and nowhere else. -/
theorem run_eq (l : Line K) (c : Conditions K) (maxZoom budget : Nat) (s : State K) :
    run l c maxZoom budget s = verdict l c budget s >>= Verdict.conclude l c maxZoom := by
  induction budget generalizing s with
  | zero => rfl
  | succ budget ih =>
    rw [run, verdict, Traced.bind_assoc]
    congr 1
    funext w
    cases w with
    | accepted found => rfl
    | bracketed z => rfl
    | descending s' => exact ih s'

/-- Up to where zooming begins, all trials descend. -/
theorem trail_of_verdict {z : Zoom.State K} (h : verdict l c budget s = ⟨.ok (.bracketed z), es⟩) :
    ∃ k s' es₁ es₂, k < budget ∧ Trail (Descends l c) s k s' es₁ ∧
      Moves l c s' (.bracketed z) es₂ := by
  induction budget generalizing s es with
  | zero => cases h
  | succ budget ih =>
    rw [verdict, Traced.bind_eq_ok] at h
    obtain ⟨w, es', es'', hw, h, -⟩ := h
    have hw := moves_of_step hw
    cases w with
    | accepted found => cases h
    | bracketed z' =>
      cases h
      exact ⟨0, s, [], es', Nat.succ_pos budget, .refl, hw⟩
    | descending s' =>
      obtain ⟨k, t, es₁, es₂, hk, ht, hm⟩ := ih h
      exact ⟨k + 1, t, _, es₂, Nat.succ_lt_succ hk, ht.head hw, hm⟩

/-- Before the first trial. -/
def State.initial (c : Conditions K) (trial : K) : State K :=
  ⟨⟨⟨0.0, c.value⟩, c.slope⟩, trial, true, 1, 1⟩

end Doubling

/-- A search that starts goes on with its doublings. -/
theorem find_of_starts {o : Options K} {trial : K} (h : Starts l o c trial) :
    find l o = ⟨(Doubling.run l c o.maxZoom.toNat o.maxIter.toNat (.initial c trial)).outcome.map
      (c, ·), .value 0.0 :: .slope 0.0 ::
        (Doubling.run l c o.maxZoom.toNat o.maxIter.toNat (.initial c trial)).events⟩ := by
  have hc : (⟨c.value, c.slope, o.c1, o.c2⟩ : Conditions K) = c := by
    rw [← h.c1, ← h.c2]
  have ht := h.first
  unfold find
  dsimp only
  rw [if_neg fun hn => hn h.ordered, Traced.bind_ok h.value, Traced.bind_ok h.slope,
    if_neg h.descends, hc]
  cases hp : o.previous with
  | none =>
    rw [hp] at ht
    dsimp only at ht ⊢
    rw [Traced.bind_ok rfl, Traced.bind_pure, ← ht]
    rfl
  | some p =>
    rw [hp] at ht
    dsimp only at ht ⊢
    rw [ht, Traced.bind_ok rfl, Traced.bind_pure]
    rfl

/-- The search comes to zoom into that interval. -/
def Zooms (l : Line K) (o : Options K) (c : Conditions K) (trial : K) (z : Zoom.State K) : Prop :=
  ∃ k s es es', k < o.maxIter.toNat ∧
    Trail (Doubling.Descends l c) (.initial c trial) k s es ∧
      Doubling.Moves l c s (.bracketed z) es'

end Wolfe

namespace Brent
variable {s s' : State K} {o : Options K} {r : Step K} {nfev : Nat}

/-- A trial that is made because an end of the interval is still too far away. -/
def Cuts (l : Line K) (tol : K) (s s' : State K) (es : List (Probe K)) : Prop :=
  ¬ s.Converged tol ∧ step l tol s = ⟨.ok s', es⟩

/-- Both ends are close enough, or all trials have been made. -/
inductive Ends (l : Line K) (o : Options K) (s : State K) (budget nfev : Nat) :
    Step K → List (Probe K) → Prop
  | converged {k : Nat} {t : State K} {es : List (Probe K)} (hk : k < budget)
      (ht : Trail (Cuts l o.tol) s k t es) (hc : t.Converged o.tol) :
      Ends l o s budget nfev ⟨⟨t.x, t.fx⟩, nfev + k, 0⟩ es
  | missed {t : State K} {es : List (Probe K)} (ht : Trail (Cuts l o.tol) s budget t es) :
      Ends l o s budget nfev ⟨⟨t.x, t.fx⟩, nfev + budget, 0⟩
        (es ++ [.notice (.toleranceMissed o.maxIter)])

theorem Ends.head (hc : Cuts l o.tol s s' es) (h : Ends l o s' budget (nfev + 1) r es') :
    Ends l o s (budget + 1) nfev r (es ++ es') := by
  cases h with
  | converged hk ht hend =>
    rw [Nat.add_right_comm]
    exact .converged (Nat.succ_lt_succ hk) (ht.head hc) hend
  | missed ht =>
    rw [Nat.add_right_comm, ← List.append_assoc]
    exact .missed (ht.head hc)

theorem ends_of_run (h : run l o budget s nfev = ⟨.ok r, es⟩) : Ends l o s budget nfev r es := by
  induction budget generalizing s nfev es with
  | zero =>
    cases h
    exact .missed .refl
  | succ budget ih =>
    rw [run] at h
    split at h
    · rename_i hc
      obtain ⟨rfl, rfl⟩ := Traced.pure_eq_ok.mp h
      exact .converged (Nat.succ_pos budget) .refl hc
    · rename_i hc
      rw [Traced.bind_eq_ok] at h
      obtain ⟨s', es₁, es₂, hstep, h, rfl⟩ := h
      exact (ih h).head ⟨hc, hstep⟩

end Brent
end Descent
