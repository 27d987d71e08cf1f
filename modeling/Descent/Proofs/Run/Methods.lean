import Descent.Proofs.Run.Record

/-! Runs that differ in the method only: they are the same as long as the weights are. -/
namespace Descent
variable {K : Type} [Scalar K] {n : Nat}

def Setup.withMethod (m : Method) (s : Setup K n) : Setup K n :=
  { s with settings := { s.settings with method := m } }

def Optimizer.withMethod (m : Method) (o : Optimizer K n) : Optimizer K n :=
  { o with setup := o.setup.withMethod m }

namespace Run
variable {s s' : Setup K n} {v : Bool} {r : Run K n} {m : Method} {k : Nat}

/-- The method decides nothing but the weight. -/
theorem iterate_withMethod
    (h : ∀ {r'}, { r with nit := k }.Passes s v r' → r'.weight m = r'.weight s.settings.method) :
    iterate (s.withMethod m) v k r = iterate s v k r := by
  have ht : { r with nit := k }.tested (s.withMethod m) v = { r with nit := k }.tested s v := rfl
  rw [iterate_eq, iterate_eq, ht]
  rcases tested_cases s v { r with nit := k } with ⟨e, he, -⟩ | ⟨hn, hp⟩
  · rw [Turn.andThen_of_some he, Turn.andThen_of_some he]
  · have hw : redirect (s.withMethod m) ({ r with nit := k }.tested s v).run =
        redirect s ({ r with nit := k }.tested s v).run := by
      have hm : (s.withMethod m).settings.method = m := rfl
      unfold redirect
      rw [hm, h hp]
    rw [Turn.andThen_of_none hn, Turn.andThen_of_none hn, hw]

variable {N : Nat} (h : ∀ k < N, Live s v r k →
  iterate s' v k (after s v r k) = iterate s v k (after s v r k))
include h

theorem live_congr (hk : k ≤ N) (hl : Live s v r k) :
    Live s' v r k ∧ after s' v r k = after s v r k := by
  induction k with
  | zero => exact ⟨live_zero, rfl⟩
  | succ k ih =>
    obtain ⟨hl', hn⟩ := live_succ.mp hl
    obtain ⟨hlive, hafter⟩ := ih (by omega) hl'
    have hi := h k hk hl'
    constructor
    · rw [live_succ, hafter, hi]
      exact ⟨hlive, hn⟩
    · rw [after, after, hafter, hi]

theorem live_of_congr (hk : k ≤ N) (hl : Live s' v r k) : Live s v r k := by
  induction k with
  | zero => exact live_zero
  | succ k ih =>
    obtain ⟨hl', hn⟩ := live_succ.mp hl
    have hlive := ih (by omega) hl'
    rw [(live_congr h (by omega) hlive).2, h k hk hlive] at hn
    exact live_succ.mpr ⟨hlive, hn⟩

theorem loop_congr (hs : s'.settings.maxIter = s.settings.maxIter) {budget : Nat}
    (hk : k + budget = N) (hl : Live s v r k) :
    loop s' v (after s v r k) budget k = loop s v (after s v r k) budget k := by
  induction budget generalizing k with
  | zero => rw [loop, loop, hs]
  | succ budget ih =>
    rw [loop, loop, h k (by omega) hl]
    cases he : (iterate s v k (after s v r k)).exit with
    | some e => rfl
    | none =>
      have hnext := ih (k := k + 1) (by omega) (live_succ.mpr ⟨hl, he⟩)
      rw [after] at hnext
      simp only [hnext]

end Run

namespace Optimizer
variable {o : Optimizer K n} {debug : Bool} {x₀ : Vector K n} {r₀ r : Run K n} {m : Method}
  {k : Nat}

theorem begins_withMethod (h : o.Begins x₀ r₀) : (o.withMethod m).Begins x₀ r₀ := by
  cases h with
  | intro hf hg => exact Begins.intro (o := o.withMethod m) hf hg

variable (hb : o.Begins x₀ r₀)
  (hw : ∀ {k r r'}, o.Reaches debug x₀ k r →
    r.Passes o.setup (o.setup.settings.verifies debug) r' →
      r'.weight m = r'.weight o.setup.settings.method)
include hb hw

theorem iterate_of_weights : ∀ k < o.setup.settings.maxIter,
    Run.Live o.setup (o.setup.settings.verifies debug) r₀ k →
      Run.iterate (o.setup.withMethod m) (o.setup.settings.verifies debug) k
          (Run.after o.setup (o.setup.settings.verifies debug) r₀ k) =
        Run.iterate o.setup (o.setup.settings.verifies debug) k
          (Run.after o.setup (o.setup.settings.verifies debug) r₀ k) := by
  intro k hk hl
  apply Run.iterate_withMethod
  intro r' hp
  exact hw ⟨r₀, hb, hk, hl, rfl⟩ hp

theorem reaches_withMethod : (o.withMethod m).Reaches debug x₀ k r ↔ o.Reaches debug x₀ k r := by
  have hi := iterate_of_weights hb hw
  constructor
  · rintro ⟨r₁, hb₁, hk, hl, rfl⟩
    rw [← begins_unique (begins_withMethod hb) hb₁] at hl ⊢
    have hlive := Run.live_of_congr hi (Nat.le_of_lt hk) hl
    refine ⟨r₀, hb, hk, hlive, ?_⟩
    rw [← (Run.live_congr hi (Nat.le_of_lt hk) hlive).2]
    rfl
  · rintro ⟨r₁, hb₁, hk, hl, rfl⟩
    rw [← begins_unique hb hb₁] at hl ⊢
    obtain ⟨hlive, hafter⟩ := Run.live_congr hi (Nat.le_of_lt hk) hl
    refine ⟨r₀, begins_withMethod hb, hk, hlive, ?_⟩
    rw [← hafter]
    rfl

theorem visits_withMethod {x : Vector K n} :
    (o.withMethod m).Visits debug x₀ k x ↔ o.Visits debug x₀ k x := by
  constructor
  · rintro (hb' | ⟨hr, hs⟩)
    · exact .start hb
    · exact .moved ((reaches_withMethod hb hw).mp hr) ⟨hs.nonzero, hs.found⟩
  · rintro (hb' | ⟨hr, hs⟩)
    · exact .start (begins_withMethod hb)
    · exact .moved ((reaches_withMethod hb hw).mpr hr) ⟨hs.nonzero, hs.found⟩

/-- The whole runs are the same. -/
theorem finish_withMethod : (o.withMethod m).finish debug r₀ = o.finish debug r₀ :=
  Run.loop_congr (iterate_of_weights hb hw) rfl (Nat.zero_add _) Run.live_zero

end Optimizer
end Descent
