import Descent.Proofs.Run.Beside

/-! What a run keeps but does not look at: its history, the number of its values, and the counts of
its line search. -/
namespace Descent
variable {K : Type} [Scalar K] {n : Nat}

/-- The settings with other choices of what is observed: whether gradients are checked, and whether
the history is recorded. -/
def Setup.observed (check : Option Bool) (history : Bool) (s : Setup K n) : Setup K n :=
  { s with settings := { s.settings with checkGradient := check, history } }

/-- How histories and line searches belong together if histories grow alike and the searches find
the same steps. -/
structure Shadow (K : Type) [Scalar K] (n : Nat) where
  histories : Option (History K n) → Option (History K n) → Prop
  searches : LineSearch K → LineSearch K → Prop
  push : ∀ {h h'} (e : Snapshot K n), histories h h' →
    histories (h.map (·.push e)) (h'.map (·.push e))
  found : ∀ {l l'} (line : Line K) (hint : Option K), searches l l' →
    l'.strategy.search l'.searches line hint = l.strategy.search l.searches line hint
  after : ∀ {l l'} (outcome : Except (Fault K) (Step K)), searches l l' →
    searches (l.after outcome) (l'.after outcome)

namespace Shadow

/-- The histories and the line searches are the same. -/
def same : Shadow K n where
  histories := Eq
  searches := Eq
  push := by
    rintro h _ e rfl
    rfl
  found := by
    rintro l _ line hint rfl
    rfl
  after := by
    rintro l _ outcome rfl
    rfl

/-- The histories are any two. -/
def unrecorded : Shadow K n :=
  { (same : Shadow K n) with
    histories := fun _ _ => True
    push := fun _ _ => trivial }

/-- The searches have one strategy, which does not depend on the number of the search. -/
def uncounted : Shadow K n :=
  { (same : Shadow K n) with
    searches := fun l l' => l'.strategy = l.strategy ∧
      ∀ j k line hint, l.strategy.search j line hint = l.strategy.search k line hint
    found := by
      rintro l l' line hint ⟨hs, hany⟩
      rw [hs, hany]
    after := by
      rintro l l' outcome ⟨hs, hany⟩
      cases outcome <;> exact ⟨hs, hany⟩ }

end Shadow

/-- The run with another history, another line search, and `d` more values. -/
def Run.shadowed (hist : Option (History K n)) (l : LineSearch K) (d : Nat) (r : Run K n) :
    Run K n :=
  { r with history := hist, search := l, nfev := r.nfev + d }

/-- Two runs differ in what they do not look at only; the second has counted `d` more values. -/
def Shadow.coupling (p : Shadow K n) (d : Nat) : Coupling K n where
  runs r r' := ∃ hist l, p.histories r.history hist ∧ p.searches r.search l ∧
    r' = r.shadowed hist l d
  exits := Eq
  first _ := False
  second _ := False

/-- The parts end alike. -/
theorem Shadow.alike_of_beside {p : Shadow K n} {d : Nat} {t t' : Turn K n}
    (h : t.Beside (p.coupling d) t') :
    (p.coupling d).runs t.run t'.run ∧ t'.exit = t.exit ∧
      Event.calls t'.events = Event.calls t.events := by
  cases h with
  | alike runs exits calls =>
    refine ⟨runs, ?_, calls.symm⟩
    generalize t.exit = e at exits
    generalize t'.exit = e' at exits
    cases exits with
    | none => rfl
    | some he => exact congrArg some (Eq.symm he)
  | shorter exit stops runs precedes calls => exact stops.elim
  | longer exit stops runs precedes calls => exact stops.elim

namespace Run
variable {p : Shadow K n} {d : Nat} {s : Setup K n} {r : Run K n} {hist : Option (History K n)}
  {l : LineSearch K}

theorem found_shadowed (s : Setup K n) (hl : p.searches r.search l) :
    ((r.shadowed hist l d).searched s).found = (r.searched s).found :=
  congrArg (Traced.mapEvents (Probe.toEvent r.x r.u)) (p.found _ _ hl)

theorem searches_shadowed (s : Setup K n) (hist : Option (History K n)) (d : Nat)
    (hl : p.searches r.search l) :
    p.searches (r.searched s).search ((r.shadowed hist l d).searched s).search := by
  have h : ((r.shadowed hist l d).searched s).search =
      l.after ((r.shadowed hist l d).searched s).found.outcome := rfl
  rw [h, found_shadowed s hl]
  exact p.after _ hl

theorem runs_shadowed (hh : p.histories r.history hist) (hl : p.searches r.search l) :
    (p.coupling d).runs r (r.shadowed hist l d) :=
  ⟨hist, l, hh, hl, rfl⟩

theorem moved_shadowed (s : Setup K n) (hh : p.histories r.history hist)
    (hl : p.searches r.search l) (step : Step K) :
    (p.coupling d).runs (r.moved s step) ((r.shadowed hist l d).moved s step) := by
  refine ⟨_, _, p.push _ hh, searches_shadowed s hist d hl, ?_⟩
  simp only [moved, shadowed, Nat.add_right_comm _ d]

theorem turned_shadowed (hh : p.histories r.history hist) (hl : p.searches r.search l) (gamma : K) :
    (p.coupling d).runs (r.turned gamma) ((r.shadowed hist l d).turned gamma) := by
  unfold turned
  by_cases ha : dot (r.combined gamma) (-r.u) ≤ 0.0
  · rw [if_pos ha, if_pos (by exact ha)]
    exact runs_shadowed hh hl
  · rw [if_neg ha, if_neg (by exact ha)]
    exact runs_shadowed hh hl

/-- No part of an iteration looks at what may differ. -/
theorem kept_shadow (p : Shadow K n) (d : Nat) (s : Setup K n) (check : Option Bool)
    (history v : Bool) : (p.coupling d).Kept s (s.observed check history) v where
  nit := by
    rintro r _ k ⟨hist, l, hh, hl, rfl⟩
    exact ⟨hist, l, hh, hl, rfl⟩
  testZero := by
    rintro r _ ⟨hist, l, hh, hl, rfl⟩
    have hr : (p.coupling d).runs r (r.shadowed hist l d) := runs_shadowed hh hl
    by_cases hz : abs r.squaredNorm < s.settings.tiny
    · rw [testZero_of_lt hz, testZero_of_lt (s := s.observed check history) (by exact hz)]
      exact .alike hr (.some rfl) rfl
    · rw [testZero_of_not_lt hz, testZero_of_not_lt (s := s.observed check history) (by exact hz)]
      exact .alike hr .none rfl
  descend := by
    rintro r _ ⟨hist, l, hh, hl, rfl⟩
    have hfound : ((r.shadowed hist l d).searched (s.observed check history)).found = _ :=
      found_shadowed s hl
    cases hs : (r.searched s).found.outcome with
    | error e =>
      rw [descend_of_error hs, descend_of_error (hfound ▸ hs), hfound]
      exact .alike ⟨hist, _, hh, searches_shadowed s hist d hl, rfl⟩ (.some rfl) rfl
    | ok step =>
      rw [descend_of_ok hs, descend_of_ok (hfound ▸ hs), hfound]
      exact .alike (moved_shadowed s hh hl step) .none rfl
  testValue := by
    rintro r _ ⟨hist, l, hh, hl, rfl⟩
    have hr : (p.coupling d).runs r (r.shadowed hist l d) := runs_shadowed hh hl
    by_cases hf : r.Steady s
    · rw [testValue_of_steady hf, testValue_of_steady (s := s.observed check history) (by exact hf)]
      exact .alike hr (.some rfl) rfl
    · rw [testValue_of_not_steady hf,
        testValue_of_not_steady (s := s.observed check history) (by exact hf)]
      exact .alike hr .none rfl
  differentiate := by
    rintro r _ ⟨hist, l, hh, hl, rfl⟩
    cases hg : s.vectorGradient r.x with
    | error e =>
      rw [differentiate_of_error hg,
        differentiate_of_error (s := s.observed check history) (by exact hg)]
      exact .alike ⟨hist, l, hh, hl, rfl⟩ (.some rfl) rfl
    | ok u =>
      rw [differentiate_of_ok hg, differentiate_of_ok (s := s.observed check history) (by exact hg)]
      exact .alike ⟨hist, l, hh, hl, rfl⟩ .none rfl
  checked := by
    rintro r _ ⟨hist, l, hh, hl, rfl⟩
    have hr : (p.coupling d).runs r (r.shadowed hist l d) := runs_shadowed hh hl
    cases v with
    | false => exact .alike hr .none rfl
    | true =>
      have hv : verify (s.observed check history) (r.shadowed hist l d) =
          verify s (r.shadowed hist l d) := rfl
      simp only [checked, if_pos, hv]
      unfold verify
      dsimp only [shadowed]
      cases (GradientCheck.run s.objective r.u.toList r.x
        ⟨s.settings.checkTol, s.settings.checkStep⟩ r.x).outcome with
      | error e => exact .alike hr (.some rfl) rfl
      | ok =>
        refine .alike ⟨hist, l, hh, hl, ?_⟩ .none rfl
        simp only [proceed, shadowed, Nat.add_right_comm _ d]
  testGradient := by
    rintro r _ ⟨hist, l, hh, hl, rfl⟩
    have hr : (p.coupling d).runs r (r.shadowed hist l d) := runs_shadowed hh hl
    cases ht : r.slopeTest with
    | error e =>
      rw [testGradient_of_error ht, testGradient_of_error (by exact ht)]
      exact .alike hr (.some rfl) rfl
    | ok test =>
      by_cases hg : test < s.settings.gtol
      · rw [testGradient_of_lt ht hg,
          testGradient_of_lt (s := s.observed check history) (by exact ht) hg]
        exact .alike hr (.some rfl) rfl
      · rw [testGradient_of_not_lt ht hg,
          testGradient_of_not_lt (s := s.observed check history) (by exact ht) hg]
        exact .alike hr .none rfl
  redirect := by
    rintro r _ ⟨hist, l, hh, hl, rfl⟩
    have hr : (p.coupling d).runs r (r.shadowed hist l d) := runs_shadowed hh hl
    cases hw : quotient (r.weight s.settings.method) r.squaredNorm with
    | error e =>
      rw [redirect_of_error hw,
        redirect_of_error (s := s.observed check history) (by exact hw)]
      exact .alike hr (.some rfl) rfl
    | ok gamma =>
      rw [redirect_of_ok hw, redirect_of_ok (s := s.observed check history) (by exact hw)]
      exact .alike (turned_shadowed hh hl gamma) .none rfl

/-- Whole loops end alike. -/
theorem loop_shadow {r' : Run K n} {budget k : Nat} (check : Option Bool) (history v : Bool)
    (hr : (p.coupling d).runs r r') (hk : k + budget ≤ s.settings.maxIter) :
    let f := loop s v r budget k
    let f' := loop (s.observed check history) v r' budget k
    (p.coupling d).runs f.run f'.run ∧ f'.exit = f.exit ∧
      Event.calls f'.events = Event.calls f.events := by
  have hbeside : (loop s v r budget k).toTurn.Beside (p.coupling d)
      (loop (s.observed check history) v r' (budget + 0) k).toTurn :=
    beside_loop (kept_shadow p d s check history v) hr hk hk ?_
  · obtain ⟨hrun, hexit, hcalls⟩ := Shadow.alike_of_beside hbeside
    exact ⟨hrun, Option.some.inj hexit, hcalls⟩
  · rintro r _ ⟨hist, l, hh, hl, rfl⟩
    exact .alike ⟨hist, l, hh, hl, rfl⟩ (.some rfl) rfl

end Run
end Descent
