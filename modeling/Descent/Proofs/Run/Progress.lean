import Descent.Proofs.Run.Record

/-! What only grows during a run: the number of the iteration, the counts and the history. -/
namespace Descent
variable {K : Type} {n : Nat}

/-- The history goes on where another one ends. -/
structure History.Extends (h' h : History K n) : Prop where
  values : h.values.toList <+: h'.values.toList
  iterates : h.iterates.toList <+: h'.iterates.toList
  steps : h.steps.toList <+: h'.steps.toList

namespace History
variable {h h' h'' : History K n}

theorem Extends.refl (h : History K n) : h.Extends h :=
  ⟨List.prefix_rfl, List.prefix_rfl, List.prefix_rfl⟩

theorem Extends.trans (h₁ : h''.Extends h') (h₂ : h'.Extends h) : h''.Extends h :=
  ⟨h₂.values.trans h₁.values, h₂.iterates.trans h₁.iterates, h₂.steps.trans h₁.steps⟩

theorem extends_push (h : History K n) (e : Snapshot K n) : (h.push e).Extends h := by
  constructor
  · simp only [push, Array.toList_push]
    exact List.prefix_append _ _
  · simp only [push, Array.toList_push]
    exact List.prefix_append _ _
  · simp only [push, Array.toList_push]
    exact List.prefix_append _ _

end History

namespace Run

/-- A run is no further than another one, by its number, its counts and its history. -/
structure Precedes (r r' : Run K n) : Prop where
  nit : r.nit ≤ r'.nit
  nfev : r.nfev ≤ r'.nfev
  njev : r.njev ≤ r'.njev
  history : ∀ {h}, r.history = some h → ∃ h', r'.history = some h' ∧ h'.Extends h

theorem precedes_of_history {r r' : Run K n} (h : r'.history = r.history) (hk : r.nit ≤ r'.nit)
    (hv : r.nfev ≤ r'.nfev) (hg : r.njev ≤ r'.njev) : r.Precedes r' :=
  ⟨hk, hv, hg, fun hh => ⟨_, h.trans hh, .refl _⟩⟩

theorem Precedes.refl (r : Run K n) : r.Precedes r :=
  precedes_of_history rfl (Nat.le_refl _) (Nat.le_refl _) (Nat.le_refl _)

theorem Precedes.trans {r r' r'' : Run K n} (h : r.Precedes r') (h' : r'.Precedes r'') :
    r.Precedes r'' := by
  refine ⟨Nat.le_trans h.nit h'.nit, Nat.le_trans h.nfev h'.nfev, Nat.le_trans h.njev h'.njev, ?_⟩
  intro hist hh
  obtain ⟨hist', hh', he⟩ := h.history hh
  obtain ⟨hist'', hh'', he'⟩ := h'.history hh'
  exact ⟨hist'', hh'', he'.trans he⟩

theorem precedes_nit (r : Run K n) {k : Nat} (hk : r.nit ≤ k) : r.Precedes { r with nit := k } :=
  precedes_of_history rfl hk (Nat.le_refl _) (Nat.le_refl _)

theorem precedes_andThen {r : Run K n} {t : Turn K n} {f : Run K n → Turn K n}
    (h : r.Precedes t.run) (hf : t.exit = none → t.run.Precedes (f t.run).run) :
    r.Precedes (t.andThen f).run := by
  cases he : t.exit with
  | some e =>
    rw [Turn.andThen_of_some he]
    exact h
  | none =>
    rw [Turn.andThen_of_none he]
    exact h.trans (hf he)

variable [Scalar K] (s : Setup K n) (v : Bool) (r : Run K n)

theorem precedes_testZero : r.Precedes (r.testZero s).run := by
  rw [testZero_run]
  exact .refl r

theorem precedes_descend : r.Precedes (r.descend s).run := by
  cases hf : (r.searched s).found.outcome with
  | error e =>
    rw [descend_of_error hf]
    exact precedes_of_history rfl (Nat.le_refl _) (Nat.le_refl _) (Nat.le_refl _)
  | ok step =>
    rw [descend_of_ok hf]
    refine ⟨Nat.le_refl _, Nat.le_add_right _ _, Nat.le_add_right _ _, ?_⟩
    intro hist hh
    exact ⟨_, by rw [proceed, moved, hh]; rfl, History.extends_push _ _⟩

theorem precedes_testValue : r.Precedes (r.testValue s).run := by
  unfold testValue
  split
  · exact .refl r
  · exact .refl r

theorem precedes_differentiate : r.Precedes (r.differentiate s).run := by
  cases hg : s.vectorGradient r.x with
  | error e =>
    rw [differentiate_of_error hg]
    exact precedes_of_history rfl (Nat.le_refl _) (Nat.le_refl _) (Nat.le_refl _)
  | ok u =>
    rw [differentiate_of_ok hg]
    exact precedes_of_history rfl (Nat.le_refl _) (Nat.le_refl _) (Nat.le_add_right _ _)

theorem precedes_checked : r.Precedes (r.checked s v).run := by
  obtain ⟨evals, he⟩ := checked_run s v r
  rw [he]
  exact precedes_of_history rfl (Nat.le_refl _) (Nat.le_add_right _ _) (Nat.le_refl _)

theorem testGradient_run : (r.testGradient s).run = r := by
  cases ht : r.slopeTest with
  | error e => rw [testGradient_of_error ht]
  | ok test =>
    by_cases hg : test < s.settings.gtol
    · rw [testGradient_of_lt ht hg]
    · rw [testGradient_of_not_lt ht hg]

theorem precedes_testGradient : r.Precedes (r.testGradient s).run := by
  rw [testGradient_run]
  exact .refl r

theorem precedes_redirect : r.Precedes (r.redirect s).run := by
  cases hw : quotient (r.weight s.settings.method) r.squaredNorm with
  | error e =>
    rw [redirect_of_error hw]
    exact .refl r
  | ok gamma =>
    rw [redirect_of_ok hw]
    unfold turned
    split
    · exact precedes_of_history rfl (Nat.le_refl _) (Nat.le_refl _) (Nat.le_refl _)
    · exact precedes_of_history rfl (Nat.le_refl _) (Nat.le_refl _) (Nat.le_refl _)

theorem precedes_tested : r.Precedes (r.tested s v).run := by
  unfold tested
  apply precedes_andThen (precedes_testZero s r)
  intro _
  apply precedes_andThen (precedes_descend s _)
  intro _
  apply precedes_andThen (precedes_testValue s _)
  intro _
  apply precedes_andThen (precedes_differentiate s _)
  intro _
  apply precedes_andThen (precedes_checked s v _)
  intro _
  exact precedes_testGradient s _

theorem precedes_iterate (k : Nat) : { r with nit := k }.Precedes (iterate s v k r).run := by
  rw [iterate_eq]
  exact precedes_andThen (precedes_tested s v _) fun _ => precedes_redirect s _

theorem precedes_loop {budget k : Nat} (hk : k + budget ≤ s.settings.maxIter) :
    { r with nit := k }.Precedes (loop s v r budget k).run := by
  induction budget generalizing r k with
  | zero => exact precedes_of_history rfl hk (Nat.le_refl _) (Nat.le_refl _)
  | succ budget ih =>
    change Precedes _ (loop s v r (budget + 1) k).toTurn.run
    rw [loop_succ]
    apply precedes_andThen (precedes_iterate s v r k)
    intro _
    apply Precedes.trans (precedes_nit _ _) (ih _ (by omega))
    rw [nit_iterate]
    exact Nat.le_succ k

end Run

/-- If the optimizer keeps a history, then so does a run that has begun. -/
theorem Optimizer.history_of_begins [Scalar K] {o : Optimizer K n} {x₀ : Vector K n} {r₀ : Run K n}
    (debug : Bool) (hb : o.Begins x₀ r₀) (hh : o.setup.settings.history = true) :
    ∃ h, (o.finish debug r₀).run.history = some h := by
  obtain ⟨h₀, h0⟩ : ∃ h, { r₀ with nit := 0 }.history = some h := by
    cases hb
    exact ⟨_, if_pos hh⟩
  have hprecedes := Run.precedes_loop o.setup (o.setup.settings.verifies debug) r₀
    (Nat.le_of_eq (Nat.zero_add o.setup.settings.maxIter))
  obtain ⟨h, hh, -⟩ := hprecedes.history h0
  exact ⟨h, hh⟩

end Descent
