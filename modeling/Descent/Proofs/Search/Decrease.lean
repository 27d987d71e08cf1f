import Mathlib
import Descent.Proofs.Exact
import Descent.Proofs.Search.Brent
import Descent.Proofs.Search.Forward

/-! In exact arithmetic no search ends above the value at its start, and a Wolfe search that moves
ends below it. -/
namespace Descent
variable {K : Type} [Field K] [LinearOrder K] [IsStrictOrderedRing K] [SquareRoot K]
  {l : Line K} {c : Conditions K} {es : List (Probe K)}

/-- The trial keeps a tenth of the interval away from either end. -/
theorem interpolate_inner (lo : Tangent K) (hi : Sample K) :
    ∃ t, interpolate lo hi = .ok t ∧ min lo.step hi.step + 1 / 10 * |hi.step - lo.step| ≤ t ∧
      t ≤ max lo.step hi.step - 1 / 10 * |hi.step - lo.step| := by
  have hmid : min lo.step hi.step + 1 / 10 * |hi.step - lo.step| ≤
        lo.step + 1 / 2 * (hi.step - lo.step) ∧
      lo.step + 1 / 2 * (hi.step - lo.step) ≤
        max lo.step hi.step - 1 / 10 * |hi.step - lo.step| := by
    rcases le_total lo.step hi.step with h | h
    · rw [min_eq_left h, max_eq_right h, abs_of_nonneg (by linarith)]
      constructor <;> linarith
    · rw [min_eq_right h, max_eq_left h, abs_of_nonpos (by linarith)]
      constructor <;> linarith
  simp only [interpolate, decimal_zero, decimal_half, decimal_tenth, decimal_two, smaller_eq,
    larger_eq, abs_eq, isFinite_eq, Bool.true_and]
  split
  · exact ⟨_, rfl, hmid⟩
  · rename_i hd
    rw [quotient_of_ne (not_le.mp hd).ne']
    refine ⟨_, rfl, ?_⟩
    split
    · rename_i h
      rw [Bool.and_eq_true, decide_eq_true_iff, decide_eq_true_iff] at h
      exact h
    · exact hmid

theorem interpolate_nonneg {lo : Tangent K} {hi : Sample K} {t : K} (hlo : 0 ≤ lo.step)
    (hhi : 0 ≤ hi.step) (h : interpolate lo hi = .ok t) : 0 ≤ t := by
  obtain ⟨t', ht', hle, -⟩ := interpolate_inner lo hi
  rw [h] at ht'
  cases ht'
  have hmin : 0 ≤ min lo.step hi.step := le_min hlo hhi
  have hd : 0 ≤ 1 / 10 * |hi.step - lo.step| := by positivity
  linarith

theorem inherited_nonneg : Inherited fun t : K => 0 ≤ t where
  double h := by
    rw [decimal_two]
    exact mul_nonneg h zero_le_two
  inside := interpolate_nonneg

theorem firstStep_pos {value slope previous t : K}
    (h : firstStep value slope previous = .ok t) : 0 < t := by
  unfold firstStep at h
  obtain ⟨q, -, h⟩ := Except.bind_eq_ok.mp h
  cases h
  simp only [isFinite_eq, decimal_zero, decimal_one, smaller_eq, Bool.not_true, Bool.false_or]
  split
  · exact one_pos
  · rename_i hn
    rw [decide_eq_true_iff, not_le] at hn
    exact lt_min one_pos hn

namespace Conditions

/-- A step forward with sufficient decrease. -/
def Sufficient (c : Conditions K) (s : Sample K) : Prop := 0 ≤ s.step ∧ ¬ c.TooHigh s

theorem sufficient_start (c : Conditions K) : c.Sufficient ⟨0.0, c.value⟩ := by
  unfold Sufficient TooHigh
  simp

theorem Sufficient.value_le {s : Sample K} (h : c.Sufficient s) (h1 : 0 ≤ c.c1)
    (hd : c.slope ≤ 0) : s.value ≤ c.value := by
  have hle : s.value ≤ c.value + c.c1 * s.step * c.slope := not_lt.mp h.2
  have hp : c.c1 * s.step * c.slope ≤ 0 := mul_nonpos_of_nonneg_of_nonpos (mul_nonneg h1 h.1) hd
  linarith

theorem Sufficient.value_lt {s : Sample K} (h : c.Sufficient s) (h1 : 0 < c.c1)
    (hd : c.slope < 0) (hs : s.step ≠ 0) : s.value < c.value := by
  have hle : s.value ≤ c.value + c.c1 * s.step * c.slope := not_lt.mp h.2
  have hp : c.c1 * s.step * c.slope < 0 :=
    mul_neg_of_pos_of_neg (mul_pos h1 (lt_of_le_of_ne h.1 hs.symm)) hd
  linarith

end Conditions

namespace Zoom

/-- The better end has sufficient decrease, and the interval lies ahead. -/
def State.Ahead (c : Conditions K) (s : State K) : Prop :=
  c.Sufficient s.lo.toSample ∧ 0 ≤ s.hi.step

theorem ahead_moves {s s' : State K} (hs : s.Ahead c) (h : Moves l c s (.narrowed s') es) :
    s'.Ahead c := admitted_moves inherited_nonneg hs h

end Zoom

namespace Wolfe

namespace Doubling

def State.Ahead (c : Conditions K) (s : State K) : Prop :=
  c.Sufficient s.last.toSample ∧ 0 ≤ s.trial

omit [IsStrictOrderedRing K] in
theorem ahead_bracketed {s : State K} {z : Zoom.State K} (hs : s.Ahead c)
    (h : Moves l c s (.bracketed z) es) : z.Ahead c :=
  admitted_bracketed (F := fun t => 0 ≤ t) hs h

end Doubling

variable {o : Options K}

theorem Starts.constants {trial : K} (h : Starts l o c trial) :
    0 < c.c1 ∧ c.c1 < c.c2 ∧ c.c2 < 1 := by
  have ho := h.ordered
  rwa [Ordered, decimal_zero, decimal_one, ← h.c1, ← h.c2] at ho

theorem Starts.slope_neg {trial : K} (h : Starts l o c trial) : c.slope < 0 := by
  have hd := h.descends
  rwa [decimal_zero, not_le] at hd

theorem nonneg_of_starts {trial : K} (ha : o.previous = none → 0 ≤ o.alpha0)
    (h : Starts l o c trial) : 0 ≤ trial := h.trial_of ha fun _ hp => (firstStep_pos hp).le

/-- A Wolfe search ends with sufficient decrease from the value at its start. -/
theorem sufficient_search {r : Step K} (hp : o.previous = none → 0 ≤ o.alpha0)
    (h : search l o = ⟨.ok r, es⟩) :
    ∃ c trial, Starts l o c trial ∧ c.Sufficient r.toSample := by
  refine admits_search inherited_nonneg (fun hs => ⟨Conditions.sufficient_start _, ?_⟩) ?_ h
  · exact nonneg_of_starts hp hs
  · intro t s hu
    simp only [isFinite_eq, Bool.not_true, Bool.false_or, Bool.or_eq_true, decide_eq_true_iff,
      not_or, not_le, decimal_zero] at hu
    exact hu.1.le

theorem value_of_search {r : Step K} (hp : o.previous = none → 0 ≤ o.alpha0)
    (h : search l o = ⟨.ok r, es⟩) :
    ∃ v, l.value 0 = .ok v ∧ r.value ≤ v ∧ (r.step ≠ 0 → r.value < v) := by
  obtain ⟨c, trial, hs, hc⟩ := sufficient_search hp h
  obtain ⟨h1, -⟩ := hs.constants
  have hv := hs.value
  rw [decimal_zero] at hv
  exact ⟨c.value, hv, hc.value_le h1.le hs.slope_neg.le, hc.value_lt h1 hs.slope_neg⟩

end Wolfe

namespace Bracket
variable {s : Bracket K} {a b : K} {count : Nat} {o : Options K}

omit [IsStrictOrderedRing K] in
/-- The value in the middle of a bracket is no greater than that of either point it began with. -/
theorem middle_of_search (h : search l a b o = ⟨.ok (s, count), es⟩) :
    ∃ fa fb, l.value a = .ok fa ∧ l.value b = .ok fb ∧ s.fb ≤ fa ∧ s.fb ≤ fb := by
  obtain ⟨s₀, es₁, es₂, hi, hr, -⟩ := initial_of_search h
  obtain ⟨-, fa, fb, ha, hb, -, hm⟩ := initial_eq_ok hi
  have hm : s₀.fb ≤ min fa fb := by
    rcases hm with ⟨hlt, -, -, -, rfl⟩ | ⟨hnlt, -, -, -, rfl⟩
    · exact le_min le_rfl (le_of_lt hlt)
    · exact le_min (not_lt.mp hnlt) le_rfl
  have hle : s.fb ≤ min fa fb := by
    refine run_keeps (I := fun s => s.fb ≤ min fa fb) (fun hs _ => hs) ?_ ?_ hm hr
    · intro s s' count es hs hc h
      cases h with
      | insideLower hu hi hv hl => exact (hl.trans (not_le.mp hc)).le.trans hs
      | insideHigher hu hi hv hl hh => exact hs
    · intro s s' count es hs hc h
      have hc : s.fc ≤ min fa fb := (not_le.mp hc).le.trans hs
      cases h with
      | insideUseless hu hi hv hl hh hw => exact hc
      | outsideLower hu hi ho hv hl hw => exact hl.le.trans hc
      | outsideHigher hu hi ho hv hl => exact hc
      | farthest hu hi ho hf hv => exact hc
      | back hu hi ho hf hw => exact hc
  exact ⟨fa, fb, ha, hb, hle.trans (min_le_left _ _), hle.trans (min_le_right _ _)⟩

end Bracket

namespace Brent
variable {o : Options K} {r : Step K}

omit [IsStrictOrderedRing K] in
theorem value_of_search {a b c fb : K} (h : search l a b c fb o = ⟨.ok r, es⟩) : r.value ≤ fb := by
  obtain ⟨t, ht, hr⟩ := run_keeps (I := fun s => s.fx ≤ fb) (o := o)
    (fun hs _ hm => by
      rcases best_step hm with ⟨-, hle⟩ | ⟨-, heq⟩
      · exact hle.trans hs
      · exact heq.le.trans hs) (s := .initial a b c fb) le_rfl h
  rw [hr]
  exact ht

theorem value_of_bracketAndSearch (h : bracketAndSearch l o = ⟨.ok r, es⟩) :
    ∃ v, l.value 0 = .ok v ∧ r.value ≤ v := by
  obtain ⟨s, nfev, found, es₁, es₂, hb, hf, rfl, -⟩ := bracket_of_search h
  obtain ⟨fa, fb, ha, -, hle, -⟩ := Bracket.middle_of_search hb
  rw [decimal_zero] at ha
  exact ⟨fa, ha, (value_of_search hf).trans hle⟩

end Brent
end Descent
