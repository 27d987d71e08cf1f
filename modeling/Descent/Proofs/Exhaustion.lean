import Mathlib
import Descent.Proofs.Quadratic
import Descent.Proofs.Search.Division

/-! When the search for a bracket gives up: it looks at the triples before its expansions, and not
at the one that the last expansion leaves. -/
namespace Descent.Bracket
variable {K : Type} [Scalar K] {l : Line K} {s s' : Bracket K} {a b : K} {o : Options K} {k : ℕ}
  {es es' : List (Probe K)}

theorem search_of_initial (h : initial l a b = ⟨.ok s, es⟩) :
    search l a b o = ⟨(run l o o.maxIter.toNat s 3).outcome,
      es ++ (run l o o.maxIter.toNat s 3).events⟩ := by
  rw [search, h, Traced.bind_ok rfl]

section
variable (hl : ∀ t m, l.value t ≠ .error (.noBracket m))
include hl

omit [Scalar K] in
theorem valueAt_ne_noBracket (t : K) : (l.valueAt t).FailsOnly fun e => ∀ m, e ≠ .noBracket m := by
  constructor
  rintro e hv m rfl
  exact hl t m hv

theorem expand_ne_noBracket (growLimit : K) (s : Bracket K) :
    (expand l growLimit s).FailsOnly fun e => ∀ m, e ≠ .noBracket m := by
  apply failsOnly_expand_of_vertex (valueAt_ne_noBracket hl)
  intro e hv m he
  rw [fault_of_vertex hv] at he
  cases he

/-- A run that gives up has made all its expansions. -/
theorem trail_of_gives_up {m : ℤ} {budget nfev : ℕ}
    (h : (run l o budget s nfev).outcome = .error (.noBracket m)) :
    ∃ s' es, Trail (Expands l o.growLimit) s budget s' es := by
  obtain ⟨es, hends⟩ : ∃ es, Ends l o s budget (.error (.noBracket m)) es := by
    have hends := ends_run l o budget s nfev
    rw [h] at hends
    exact ⟨_, hends⟩
  cases hends with
  | exhausted ht => exact ⟨_, _, ht⟩
  | faulty hk ht hc he =>
    exact ((expand_ne_noBracket hl _ _).fault (congrArg Traced.outcome he) m rfl).elim

end

/-- A line with its minimum ahead of the unit interval. -/
def square : Line ℚ := ⟨fun t => .ok ((t - 3) ^ 2), fun t => .ok (2 * (t - 3))⟩

/-- One expansion leads to a bracket of that minimum. -/
theorem expands_square : ∃ s s' es es', initial square 0 1 = ⟨.ok s, es⟩ ∧
    Expands square 100 s s' es' ∧ s'.fb ≤ s'.fc := by
  have hcheck : (match (initial square 0 1).outcome with
      | .ok s => match (expand square 100 s).outcome with
        | .ok (.next s', _) => decide (¬ s.fb ≤ s.fc ∧ s'.fb ≤ s'.fc)
        | _ => false
      | .error _ => false) = true := by decide +kernel
  split at hcheck
  · rename_i s hi
    split at hcheck
    · rename_i s' count hx
      rw [decide_eq_true_iff] at hcheck
      exact ⟨s, s', _, _, Traced.eq_of_outcome hi,
        ⟨hcheck.1, count, Traced.eq_of_outcome hx⟩, hcheck.2⟩
    · cases hcheck
  · cases hcheck

/-- A search gives up if and only if all the expansions it may make have been made, each of a triple
that is no bracket; what the last of them leaves may be one. A bracket that fewer expansions lead to
is returned. -/
theorem search_gives_up (hl : ∀ t m, l.value t ≠ .error (.noBracket m)) (a b : K)
    (o : Options K) :
    ((search l a b o).outcome = .error (.noBracket o.maxIter) ↔
      ∃ s s' es es', initial l a b = ⟨.ok s, es⟩ ∧
        Trail (Expands l o.growLimit) s o.maxIter.toNat s' es') ∧
    ∀ s s' k es es', initial l a b = ⟨.ok s, es⟩ → k < o.maxIter.toNat →
      Trail (Expands l o.growLimit) s k s' es' → s'.fb ≤ s'.fc →
        ∃ count, search l a b o = ⟨.ok (s', count), es ++ es'⟩ := by
  refine ⟨⟨?_, ?_⟩, ?_⟩
  · intro h
    cases hi : (initial l a b).outcome with
    | error e =>
      rw [search, Traced.bind_error hi] at h
      have hfails := failsOnly_initial (valueAt_ne_noBracket hl) a b
      exact (hfails.fault hi _ (Except.error.inj h)).elim
    | ok s =>
      have hi := Traced.eq_of_outcome hi
      rw [search_of_initial hi] at h
      obtain ⟨s', es', ht⟩ := trail_of_gives_up hl h
      exact ⟨s, s', _, es', hi, ht⟩
  · rintro ⟨s, s', es, es', hi, ht⟩
    obtain ⟨nfev, hrun⟩ := run_of_trail ht 0 3
    rw [search_of_initial hi, show o.maxIter.toNat = o.maxIter.toNat + 0 from rfl, hrun]
    rfl
  · intro s s' k es es' hi hk ht hc
    obtain ⟨budget, hbudget⟩ : ∃ budget, o.maxIter.toNat = k + (budget + 1) :=
      ⟨o.maxIter.toNat - k - 1, by omega⟩
    obtain ⟨count, hrun⟩ := run_of_trail ht (budget + 1) 3
    refine ⟨count, ?_⟩
    rw [search_of_initial hi, hbudget, hrun, run, if_pos hc]
    simp

/-- The bracket is returned if two expansions may be made. If only that one may be made, the search
gives up. -/
theorem search_gives_up_square :
    (∃ s s' es es' count, initial square 0 1 = ⟨.ok s, es⟩ ∧
      Trail (Expands square 100) s 1 s' es' ∧ s'.fb ≤ s'.fc ∧
      search square 0 1 ⟨100, 2⟩ = ⟨.ok (s', count), es ++ es'⟩) ∧
    (search square 0 1 ⟨100, 1⟩).outcome = .error (.noBracket 1) := by
  have hl : ∀ t m, square.value t ≠ .error (.noBracket m) := by
    rintro t m ⟨⟩
  obtain ⟨s, s', es, es', hi, hx, hc⟩ := expands_square
  have ht : Trail (Expands square 100) s 1 s' es' := .tail .refl hx
  obtain ⟨count, hs⟩ := (search_gives_up hl 0 1 ⟨100, 2⟩).2 s s' 1 es es' hi (by decide) ht hc
  exact ⟨⟨s, s', es, es', count, hi, ht, hc, hs⟩,
    (search_gives_up hl 0 1 ⟨100, 1⟩).1.mpr ⟨s, s', es, es', hi, ht⟩⟩

/-- A search that may expand once gives up, although the triple that its expansion leaves is a
bracket. -/
theorem search_overlooks_bracket :
    (search square 0 1 ⟨100, 1⟩).outcome = .error (.noBracket 1) ∧
      ∃ s s' es es', initial square 0 1 = ⟨.ok s, es⟩ ∧ Expands square 100 s s' es' ∧
        s'.fb ≤ s'.fc := by
  refine ⟨?_, expands_square⟩
  have hfault : (search square 0 1 ⟨100, 1⟩).FailsOnly (· = .noBracket 1) :=
    failsOnly_search (fun t => ⟨by rintro e ⟨⟩⟩) rfl
  have hfail : (search square 0 1 ⟨100, 1⟩).outcome.isOk = false := by decide +kernel
  cases ho : (search square 0 1 ⟨100, 1⟩).outcome with
  | ok p =>
    rw [ho] at hfail
    cases hfail
  | error e => rw [hfault.fault ho]

end Descent.Bracket
