import Descent.Proofs.Outcome
import Descent.Search.Wolfe

/-! How a Wolfe search can fail: it divides by zero, its constants are not in order, the line does
not descend, or one of the functions fails. -/
namespace Descent
variable {K : Type} [Scalar K] {P : Fault K → Prop} {l : Line K} {c : Conditions K}

theorem fault_of_quotient {a b : K} {e : Fault K} (h : quotient a b = .error e) :
    e = .divisionByZero := by
  unfold quotient at h
  split at h
  · cases h
    rfl
  · cases h

theorem fault_of_interpolate {lo : Tangent K} {hi : Sample K} {e : Fault K}
    (h : interpolate lo hi = .error e) : e = .divisionByZero := by
  unfold interpolate at h
  dsimp only at h
  split at h
  · cases h
  · rcases Except.bind_eq_error.mp h with hq | ⟨q, -, h⟩
    · exact fault_of_quotient hq
    · cases h

theorem fault_of_firstStep {value slope previous : K} {e : Fault K}
    (h : firstStep value slope previous = .error e) : e = .divisionByZero := by
  unfold firstStep at h
  rcases Except.bind_eq_error.mp h with hq | ⟨q, -, h⟩
  · exact fault_of_quotient hq
  · cases h

/-- The functions fail in these ways only. -/
structure Line.FailsOnly (P : Fault K → Prop) (l : Line K) : Prop where
  value : ∀ t, (l.valueAt t).FailsOnly P
  slope : ∀ t, (l.slopeAt t).FailsOnly P

/-- The divisions of a Wolfe search fail in these ways only. The slope at the start is negative, and
the secant is taken to a step with a slope above it. -/
structure Wolfe.DividesOnly (P : Fault K → Prop) : Prop where
  interpolate : ∀ {lo : Tangent K} {hi : Sample K} {e : Fault K}, interpolate lo hi = .error e → P e
  firstStep : ∀ {value slope previous : K} {e : Fault K}, ¬ slope ≥ 0.0 →
    firstStep value slope previous = .error e → P e
  secant : ∀ {a slope d : K} {e : Fault K}, ¬ d ≤ slope → quotient a (slope - d) = .error e → P e

theorem Wolfe.DividesOnly.of_divisionByZero (hz : P .divisionByZero) : DividesOnly P where
  interpolate h := fault_of_interpolate h ▸ hz
  firstStep _ h := fault_of_firstStep h ▸ hz
  secant _ h := fault_of_quotient h ▸ hz

variable (hl : l.FailsOnly P) (hz : Wolfe.DividesOnly P)

namespace Zoom

omit [Scalar K] in
theorem failsOnly_giveUp (s : State K) : (giveUp s).FailsOnly P := by
  constructor
  intro e h
  cases h

include hl hz

theorem failsOnly_step (s : State K) : (step l c s).FailsOnly P := by
  unfold step
  apply Traced.failsOnly_lift_bind fun e => hz.interpolate
  intro t _
  apply Traced.failsOnly_bind (hl.value t)
  intro v _
  dsimp only
  split
  · exact Traced.failsOnly_pure _
  · apply Traced.failsOnly_bind (hl.slope t)
    intro d _
    split
    · exact Traced.failsOnly_pure _
    · exact Traced.failsOnly_pure _

theorem failsOnly_run (budget : Nat) (s : State K) : (run l c budget s).FailsOnly P := by
  induction budget generalizing s with
  | zero => exact failsOnly_giveUp s
  | succ budget ih =>
    apply Traced.failsOnly_bind (failsOnly_step hl hz s)
    intro w _
    cases w with
    | accepted found => exact Traced.failsOnly_pure _
    | narrowed s' =>
      dsimp only
      split
      · exact failsOnly_giveUp s'
      · exact ih s'

end Zoom

namespace Wolfe

namespace Doubling

include hl in
theorem failsOnly_step (s : State K) : (step l c s).FailsOnly P := by
  unfold step
  apply Traced.failsOnly_bind (hl.value s.trial)
  intro v _
  dsimp only
  split
  · exact Traced.failsOnly_pure _
  · apply Traced.failsOnly_bind (hl.slope s.trial)
    intro d _
    split
    · exact Traced.failsOnly_pure _
    · split
      · exact Traced.failsOnly_pure _
      · exact Traced.failsOnly_pure _

include hl hz in
theorem failsOnly_run (maxZoom budget : Nat) (s : State K) :
    (run l c maxZoom budget s).FailsOnly P := by
  induction budget generalizing s with
  | zero => exact Traced.failsOnly_pure _
  | succ budget ih =>
    apply Traced.failsOnly_bind (failsOnly_step hl s)
    intro w _
    cases w with
    | accepted found => exact Traced.failsOnly_pure _
    | bracketed z => exact Zoom.failsOnly_run hl hz maxZoom z
    | descending s' => exact ih s'

end Doubling

variable {o : Options K}
include hl hz

theorem failsOnly_refine (s : Step K) (d : K) : (refine l c s d).FailsOnly P := by
  unfold refine
  split
  · exact Traced.failsOnly_pure _
  rename_i hd
  rw [Bool.or_eq_true, decide_eq_true_iff, not_or] at hd
  apply Traced.failsOnly_lift_bind fun e => hz.secant hd.2
  intro t _
  split
  · exact Traced.failsOnly_pure _
  apply Traced.failsOnly_bind (hl.value t)
  intro v _
  dsimp only
  split
  · exact Traced.failsOnly_pure _
  · exact Traced.failsOnly_bind (hl.slope t) fun d' _ => Traced.failsOnly_pure _

/-- The search complains of a direction only if the slope at the start is not negative. -/
theorem failsOnly_find (hu : ¬ Ordered o.c1 o.c2 → P .unorderedConstants)
    (ha : ∀ d, l.slope 0.0 = .ok d → d ≥ 0.0 → P .ascentDirection) :
    (find l o).FailsOnly P := by
  unfold find
  dsimp only
  split
  · exact Traced.failsOnly_fail (hu ‹_›)
  apply Traced.failsOnly_bind (hl.value 0.0)
  intro v _
  apply Traced.failsOnly_bind (hl.slope 0.0)
  intro d hd
  split
  · exact Traced.failsOnly_fail (ha d hd ‹_›)
  rename_i hn
  have hrest : ∀ trial, (do
      let found ← Doubling.run l ⟨v, d, o.c1, o.c2⟩ o.maxZoom.toNat o.maxIter.toNat
        ⟨⟨⟨0.0, v⟩, d⟩, trial, true, 1, 1⟩
      return ((⟨v, d, o.c1, o.c2⟩ : Conditions K), found)).FailsOnly P := by
    intro trial
    exact Traced.failsOnly_bind (Doubling.failsOnly_run hl hz _ _ _) fun _ _ =>
      Traced.failsOnly_pure _
  split
  · apply Traced.failsOnly_lift_bind fun e => hz.firstStep hn
    intro trial _
    exact hrest trial
  · exact hrest o.alpha0

theorem failsOnly_search (hu : ¬ Ordered o.c1 o.c2 → P .unorderedConstants)
    (ha : ∀ d, l.slope 0.0 = .ok d → d ≥ 0.0 → P .ascentDirection) :
    (search l o).FailsOnly P := by
  unfold search
  apply Traced.failsOnly_bind (failsOnly_find hl hz hu ha)
  rintro ⟨c, found⟩ _
  dsimp only
  split
  · exact failsOnly_refine hl hz _ _
  · exact Traced.failsOnly_pure _
  · exact Traced.failsOnly_pure _

end Wolfe
end Descent
