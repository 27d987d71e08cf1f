import Descent.Proofs.Search.Faults
import Descent.Proofs.Search.Trail

/-! The triples that the search for a bracket goes through, and the ways in which it ends. -/
namespace Descent.Bracket
variable {K : Type} [Scalar K] {l : Line K} {growLimit : K} {s s' : Bracket K} {o : Options K}
  {r : Except (Fault K) (Bracket K)} {k budget : Nat} {es es' : List (Probe K)}

/-- Three points that are no bracket, and the three that their expansion leaves. -/
def Expands (l : Line K) (growLimit : K) (s s' : Bracket K) (es : List (Probe K)) : Prop :=
  ¬ s.fb ≤ s.fc ∧ ∃ count, expand l growLimit s = ⟨.ok (.next s', count), es⟩

/-- Three points are a bracket before they are expanded, or one is found by their expansion; the
expansion fails; or the last expansion has been made. -/
inductive Ends (l : Line K) (o : Options K) (s : Bracket K) (budget : Nat) :
    Except (Fault K) (Bracket K) → List (Probe K) → Prop
  | enclosed {k : Nat} {s' : Bracket K} {es : List (Probe K)} (hk : k < budget)
      (ht : Trail (Expands l o.growLimit) s k s' es) (hc : s'.fb ≤ s'.fc) :
      Ends l o s budget (.ok s') es
  | found {k count : Nat} {s' s'' : Bracket K} {es es' : List (Probe K)} (hk : k < budget)
      (ht : Trail (Expands l o.growLimit) s k s' es) (hc : ¬ s'.fb ≤ s'.fc)
      (he : expand l o.growLimit s' = ⟨.ok (.found s'', count), es'⟩) :
      Ends l o s budget (.ok s'') (es ++ es')
  | faulty {k : Nat} {s' : Bracket K} {e : Fault K} {es es' : List (Probe K)} (hk : k < budget)
      (ht : Trail (Expands l o.growLimit) s k s' es) (hc : ¬ s'.fb ≤ s'.fc)
      (he : expand l o.growLimit s' = ⟨.error e, es'⟩) :
      Ends l o s budget (.error e) (es ++ es')
  | exhausted {s' : Bracket K} {es : List (Probe K)}
      (ht : Trail (Expands l o.growLimit) s budget s' es) :
      Ends l o s budget (.error (.noBracket o.maxIter)) es

theorem Ends.head (hx : Expands l o.growLimit s s' es) (h : Ends l o s' budget r es') :
    Ends l o s (budget + 1) r (es ++ es') := by
  cases h with
  | enclosed hk ht hc => exact .enclosed (Nat.succ_lt_succ hk) (ht.head hx) hc
  | found hk ht hc he =>
    rw [← List.append_assoc]
    exact .found (Nat.succ_lt_succ hk) (ht.head hx) hc he
  | faulty hk ht hc he =>
    rw [← List.append_assoc]
    exact .faulty (Nat.succ_lt_succ hk) (ht.head hx) hc he
  | exhausted ht => exact .exhausted (ht.head hx)

theorem ends_run (l : Line K) (o : Options K) (budget : Nat) (s : Bracket K) (nfev : Nat) :
    Ends l o s budget ((run l o budget s nfev).outcome.map (·.1)) (run l o budget s nfev).events := by
  induction budget generalizing s nfev with
  | zero => exact .exhausted .refl
  | succ budget ih =>
    rw [run]
    by_cases hc : s.fb ≤ s.fc
    · rw [if_pos hc]
      exact .enclosed (Nat.succ_pos budget) .refl hc
    rw [if_neg hc]
    cases ho : (expand l o.growLimit s).outcome with
    | error e =>
      rw [Traced.bind_error ho]
      exact .faulty (Nat.succ_pos budget) .refl hc (by rw [← ho])
    | ok w =>
      have hx := Traced.eq_of_outcome ho
      rw [Traced.bind_ok ho]
      obtain ⟨w, count⟩ := w
      cases w with
      | found s' =>
        dsimp only
        rw [Traced.pure_events, List.append_nil]
        exact .found (Nat.succ_pos budget) .refl hc hx
      | next s' => exact (ih s' (nfev + count)).head ⟨hc, count, hx⟩

/-- Where expansions lead, the run goes on from there. -/
theorem run_of_trail (h : Trail (Expands l o.growLimit) s k s' es) (budget nfev : Nat) :
    ∃ nfev', run l o (k + budget) s nfev =
      ⟨(run l o budget s' nfev').outcome, es ++ (run l o budget s' nfev').events⟩ := by
  induction h generalizing budget with
  | refl => exact ⟨nfev, by rw [Nat.zero_add, List.nil_append]⟩
  | tail _ hx ih =>
    obtain ⟨hc, count, he⟩ := hx
    obtain ⟨nfev', hrun⟩ := ih (budget + 1)
    refine ⟨nfev' + count, ?_⟩
    rw [Nat.add_assoc, Nat.add_comm 1, hrun, run, if_neg hc, he, Traced.bind_ok rfl,
      List.append_assoc]

theorem failsOnly_initial {P : Fault K → Prop} (hl : ∀ t, (l.valueAt t).FailsOnly P) (a b : K) :
    (initial l a b).FailsOnly P := by
  unfold initial
  apply Traced.failsOnly_bind (hl a)
  intro fa _
  apply Traced.failsOnly_bind (hl b)
  intro fb _
  exact Traced.failsOnly_bind (hl _) fun fc _ => Traced.failsOnly_pure _

/-- An expansion fails where its parabola has no vertex, and where the line has no value. -/
theorem failsOnly_expand_of_vertex {P : Fault K → Prop} (hl : ∀ t, (l.valueAt t).FailsOnly P)
    (hv : ∀ e, s.vertex = .error e → P e) (growLimit : K) : (expand l growLimit s).FailsOnly P := by
  have hvalue : ∀ {α : Type} (t : K) (f : K → α), (do return f (← l.valueAt t)).FailsOnly P := by
    intro α t f
    exact Traced.failsOnly_bind (hl t) fun v _ => Traced.failsOnly_pure _
  unfold expand
  apply Traced.failsOnly_lift_bind hv
  intro u _
  dsimp only
  split
  · apply Traced.failsOnly_bind (hl u)
    intro fu _
    split
    · exact Traced.failsOnly_pure _
    · split
      · exact Traced.failsOnly_pure _
      · exact hvalue _ _
  · split
    · apply Traced.failsOnly_bind (hl u)
      intro fu _
      split
      · exact hvalue _ _
      · exact Traced.failsOnly_pure _
    · split
      · exact hvalue _ _
      · exact hvalue _ _

theorem fault_of_vertex {e : Fault K} (h : s.vertex = .error e) : e = .divisionByZero := by
  unfold vertex at h
  extract_lets r q denom at h
  rcases Except.bind_eq_error.mp h with hq | ⟨d, -, h⟩
  · exact fault_of_quotient hq
  · cases h

end Descent.Bracket
