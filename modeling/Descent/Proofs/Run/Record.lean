import Descent.Proofs.Run.Trajectory

/-! What a run records of its progress: the point, its value and the history change in searches
only. -/
namespace Descent
variable {K : Type} {n : Nat}

namespace Run

/-- Two runs are at one point with one value, one history and one strategy. -/
structure Alike (r r' : Run K n) : Prop where
  x : r'.x = r.x
  fmin : r'.fmin = r.fmin
  history : r'.history = r.history
  strategy : r'.search.strategy = r.search.strategy

theorem Alike.trans {r r' r'' : Run K n} (h : r.Alike r') (h' : r'.Alike r'') : r.Alike r'' :=
  ⟨h'.x.trans h.x, h'.fmin.trans h.fmin, h'.history.trans h.history, h'.strategy.trans h.strategy⟩

theorem alike_nit (r : Run K n) (m : Nat) : r.Alike { r with nit := m } :=
  ⟨rfl, rfl, rfl, rfl⟩

variable [Scalar K] {s : Setup K n} {v : Bool} {r r' : Run K n} {e : Exit K}

theorem strategy_searched : (r.searched s).search.strategy = r.search.strategy := by
  unfold searched LineSearch.minimize LineSearch.after
  dsimp only
  split <;> rfl

theorem alike_of_differentiates (h : r.Differentiates s v r') :
    ∃ step, r.Searches s step ∧ (r.moved s step).Alike r' := by
  obtain ⟨step, u, nfev, hs, -, -, rfl⟩ := eq_of_differentiates h
  exact ⟨step, hs, rfl, rfl, rfl, rfl⟩

theorem turned_alike (r : Run K n) (gamma : K) : r.Alike (r.turned gamma) := by
  unfold turned
  split <;> exact ⟨rfl, rfl, rfl, rfl⟩

theorem alike_of_completes (h : r.Completes s v r') :
    ∃ step, r.Searches s step ∧ (r.moved s step).Alike r' := by
  cases h with
  | intro hp hw =>
    obtain ⟨step, hs, ha⟩ := alike_of_differentiates hp.differentiates
    exact ⟨step, hs, ha.trans (turned_alike _ _)⟩

/-- A run ends where its last search began or where it ended. -/
theorem alike_of_ends (h : r.Ends s v r' e) :
    r.Alike r' ∨ ∃ step, r.Searches s step ∧ (r.moved s step).Alike r' := by
  cases h with
  | zeroGradient hz => exact .inl ⟨rfl, rfl, rfl, rfl⟩
  | searchFails hz hs => exact .inl ⟨rfl, rfl, rfl, strategy_searched⟩
  | functionTolerance hs hf => exact .inr ⟨_, hs, rfl, rfl, rfl, rfl⟩
  | gradientFails hs hf hg => exact .inr ⟨_, hs, rfl, rfl, rfl, rfl⟩
  | checkFails hs hf hg hv hc => exact .inr ⟨_, hs, rfl, rfl, rfl, rfl⟩
  | testFails hd ht => exact .inr (alike_of_differentiates hd)
  | gradientTolerance hd ht hg => exact .inr (alike_of_differentiates hd)
  | weightFails hp hw => exact .inr (alike_of_differentiates hp.differentiates)

theorem strategy_iterate (s : Setup K n) (v : Bool) (k : Nat) (r : Run K n) :
    (iterate s v k r).run.search.strategy = r.search.strategy := by
  rcases iterate_cases s v k r with ⟨e, -, hends⟩ | ⟨-, hc⟩
  · rcases alike_of_ends hends with ha | ⟨step, -, ha⟩
    · exact ha.strategy
    · exact ha.strategy.trans strategy_searched
  · obtain ⟨step, -, ha⟩ := alike_of_completes hc
    exact ha.strategy.trans strategy_searched

theorem nit_of_differentiates (h : r.Differentiates s v r') : r'.nit = r.nit := by
  obtain ⟨step, u, nfev, -, -, -, rfl⟩ := eq_of_differentiates h
  rfl

theorem nit_of_completes (h : r.Completes s v r') : r'.nit = r.nit := by
  cases h with
  | intro hp hw =>
    rw [← nit_of_differentiates hp.differentiates]
    unfold turned
    split <;> rfl

theorem nit_of_ends (h : r.Ends s v r' e) : r'.nit = r.nit := by
  cases h with
  | zeroGradient hz => rfl
  | searchFails hz hs => rfl
  | functionTolerance hs hf => rfl
  | gradientFails hs hf hg => rfl
  | checkFails hs hf hg hv hc => rfl
  | testFails hd ht => exact nit_of_differentiates hd
  | gradientTolerance hd ht hg => exact nit_of_differentiates hd
  | weightFails hp hw => exact nit_of_differentiates hp.differentiates

/-- An iteration leaves its number. -/
theorem nit_iterate (s : Setup K n) (v : Bool) (k : Nat) (r : Run K n) :
    (iterate s v k r).run.nit = k := by
  rcases iterate_cases s v k r with ⟨e, -, hends⟩ | ⟨-, hc⟩
  · exact nit_of_ends hends
  · exact nit_of_completes hc

/-- A run that ends with a value ends with its last one. -/
theorem value_of_ends {status : Status} {value : K} (h : r.Ends s v r' (.converged status value)) :
    value = r'.fmin := by
  cases h <;> rfl

theorem not_ends_exhausted {value : K} : ¬ r.Ends s v r' (.exhausted value) := by
  intro h
  cases h

theorem searches_unique {step step' : Step K} (h : r.Searches s step) (h' : r.Searches s step') :
    step = step' := by
  have hf := h.found
  rw [h'.found] at hf
  cases hf
  rfl

end Run

namespace Optimizer
variable [Scalar K] {o : Optimizer K n} {debug : Bool} {x₀ : Vector K n} {r₀ : Run K n}

/-- The points of a run by number: where it begins, and where its searches end. -/
inductive Visits (o : Optimizer K n) (debug : Bool) (x₀ : Vector K n) : Nat → Vector K n → Prop
  | start {r₀ : Run K n} (hb : o.Begins x₀ r₀) : Visits o debug x₀ 0 x₀
  | moved {k : Nat} {r : Run K n} {step : Step K} (hr : o.Reaches debug x₀ k r)
      (hs : r.Searches o.setup step) : Visits o debug x₀ (k + 1) (along r.x r.u step.step)

/-- Search number `k` of the run from `x₀` is made from `x` along `d`, and ends with that step. -/
def Makes (o : Optimizer K n) (debug : Bool) (x₀ : Vector K n) (k : Nat) (x d : Vector K n)
    (step : Step K) : Prop :=
  ∃ r, o.Reaches debug x₀ k r ∧ r.Searches o.setup step ∧ r.x = x ∧ r.u = d

/-- As long as the run goes on, its points are those between iterations. -/
theorem eq_of_visits {k : Nat} {x : Vector K n} (h : o.Visits debug x₀ k x)
    (hb : o.Begins x₀ r₀) (hl : Run.Live o.setup (o.setup.settings.verifies debug) r₀ k) :
    x = (Run.after o.setup (o.setup.settings.verifies debug) r₀ k).x := by
  cases h with
  | start => cases hb; rfl
  | moved hr hs =>
    obtain ⟨r₁, hb₁, -, -, rfl⟩ := hr
    rw [begins_unique hb₁ hb] at hs ⊢
    obtain ⟨step', hs', ha⟩ := Run.alike_of_completes (Run.completes_of_live hl)
    rw [Run.searches_unique hs hs']
    exact ha.x.symm

/-- An iteration begins at the point of its number. -/
theorem visits_of_reaches {k : Nat} {r : Run K n} (h : o.Reaches debug x₀ k r) :
    o.Visits debug x₀ k r.x := by
  obtain ⟨r₀, hb, hk, hl, rfl⟩ := h
  cases k with
  | zero => cases hb with | intro hf hg => exact .start (.intro hf hg)
  | succ k =>
    obtain ⟨step, hs, ha⟩ := Run.alike_of_completes (Run.completes_of_live hl)
    have hx : (Run.after o.setup (o.setup.settings.verifies debug) r₀ (k + 1)).x = _ := ha.x
    change o.Visits debug x₀ (k + 1)
      (Run.after o.setup (o.setup.settings.verifies debug) r₀ (k + 1)).x
    rw [hx]
    exact .moved ⟨r₀, hb, by omega, hl.mono (Nat.le_succ k), rfl⟩ hs

/-- There is one point of each number. -/
theorem visits_unique {k : Nat} {x y : Vector K n} (hx : o.Visits debug x₀ k x)
    (hy : o.Visits debug x₀ k y) : x = y := by
  cases hx with
  | start => cases hy; rfl
  | moved hr hs =>
    cases hy with
    | moved hr' hs' =>
      rw [reaches_unique hr' hr] at hs' ⊢
      rw [Run.searches_unique hs hs']

/-- What every search keeps holds wherever the run comes, and where it ends. -/
theorem live_keeps {I : Run K n → Prop} (hb : o.Begins x₀ r₀) (h0 : I r₀)
    (ha : ∀ {r r'}, r.Alike r' → I r → I r')
    (hm : ∀ {k r step}, o.Reaches debug x₀ k r → I r → r.Searches o.setup step →
      I (r.moved o.setup step)) {k : Nat} (hk : k ≤ o.setup.settings.maxIter)
    (hl : Run.Live o.setup (o.setup.settings.verifies debug) r₀ k) :
    I (Run.after o.setup (o.setup.settings.verifies debug) r₀ k) := by
  induction k with
  | zero => exact h0
  | succ k ih =>
    have hl' := hl.mono (Nat.le_succ k)
    have hr : o.Reaches debug x₀ k _ := ⟨r₀, hb, hk, hl', rfl⟩
    obtain ⟨step, hs, hsame⟩ := Run.alike_of_completes (Run.completes_of_live hl)
    exact ha hsame (hm hr (ha (Run.alike_nit _ k) (ih (by omega) hl')) hs)

theorem reaches_keeps {I : Run K n → Prop} (h0 : ∀ {r}, o.Begins x₀ r → I r)
    (ha : ∀ {r r'}, r.Alike r' → I r → I r')
    (hm : ∀ {k r step}, o.Reaches debug x₀ k r → I r → r.Searches o.setup step →
      I (r.moved o.setup step)) {k : Nat} {r : Run K n} (h : o.Reaches debug x₀ k r) : I r := by
  obtain ⟨r₀, hb, hk, hl, rfl⟩ := h
  exact ha (Run.alike_nit _ k) (live_keeps hb (h0 hb) ha hm (Nat.le_of_lt hk) hl)

/-- An iteration begins where the search of the one before has ended. -/
theorem searches_of_reaches {k : Nat} {r r' : Run K n} (h : o.Reaches debug x₀ k r)
    (h' : o.Reaches debug x₀ (k + 1) r') :
    ∃ step, r.Searches o.setup step ∧ (r.moved o.setup step).Alike r' := by
  obtain ⟨r'', hc, rfl⟩ := completes_of_reaches h h'
  obtain ⟨step, hs, ha⟩ := Run.alike_of_completes hc
  exact ⟨step, hs, ha.trans (Run.alike_nit _ _)⟩

theorem strategy_of_reaches {k : Nat} {r : Run K n} (h : o.Reaches debug x₀ k r) :
    r.search.strategy = o.memory.search.strategy := by
  refine reaches_keeps (I := fun r => r.search.strategy = o.memory.search.strategy) ?_ ?_ ?_ h
  · intro r hb
    cases hb
    rfl
  · intro r r' ha hr
    exact ha.strategy.trans hr
  · intro k r step _ hr _
    exact Run.strategy_searched.trans hr

theorem finish_keeps {I : Run K n → Prop} (hb : o.Begins x₀ r₀) (h0 : I r₀)
    (ha : ∀ {r r'}, r.Alike r' → I r → I r')
    (hm : ∀ {k r step}, o.Reaches debug x₀ k r → I r → r.Searches o.setup step →
      I (r.moved o.setup step)) : I (o.finish debug r₀).run := by
  rcases finish_cases debug hb with ⟨k, r, hr, he⟩ | ⟨hl, hrun, -⟩
  · have hI : I r := by
      apply reaches_keeps _ ha hm hr
      intro r hb'
      rw [← begins_unique hb hb']
      exact h0
    rcases Run.alike_of_ends he with hsame | ⟨step, hs, hsame⟩
    · exact ha hsame hI
    · exact ha hsame (hm hr hI hs)
  · rw [hrun]
    exact ha (Run.alike_nit _ _) (live_keeps hb h0 ha hm (Nat.le_refl _) hl)

/-- A value that is returned is the last one. -/
theorem value_of_finish {value : K} (hb : o.Begins x₀ r₀)
    (h : (∃ status, (o.finish debug r₀).exit = .converged status value) ∨
      (o.finish debug r₀).exit = .exhausted value) : value = (o.finish debug r₀).run.fmin := by
  rcases finish_cases debug hb with ⟨k, r, -, he⟩ | ⟨-, -, hx⟩
  · rcases h with ⟨status, h⟩ | h
    · rw [h] at he
      exact Run.value_of_ends he
    · rw [h] at he
      exact (Run.not_ends_exhausted he).elim
  · rcases h with ⟨status, h⟩ | h
    · rw [h] at hx
      cases hx
    · rw [h] at hx
      cases hx
      rfl

end Optimizer
end Descent
