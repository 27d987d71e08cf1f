import Mathlib
import Descent.Proofs.Exact
import Descent.Proofs.Quadratic
import Descent.Proofs.Search.Expansion
import Descent.Proofs.Search.Forward
import Descent.Proofs.Search.Placed

/-! Searches along lines on which the objective is not defined everywhere. -/
namespace Descent
open Partial
variable {K : Type} [Field K] [LinearOrder K] [IsStrictOrderedRing K] [SquareRoot K] {n : ℕ}
  {l : Line (Partial K)} {c : Conditions (Partial K)} {es : List (Probe (Partial K))}
  {r : Step (Partial K)} {v : K}

/-- A number that is not negative. -/
def Partial.Forward (t : Partial K) : Prop := ∃ x, t = number x ∧ 0 ≤ x

theorem forward_of_tried {t : Partial K} (hf : isFinite t = true) (h : ¬ t ≤ 0.0) : t.Forward := by
  obtain ⟨x, rfl⟩ := isNumber_of_isFinite hf
  rw [decimal, number_le, decimal_zero, not_le] at h
  exact ⟨x, rfl, h.le⟩

theorem forward_of_firstStep {value slope previous t : Partial K}
    (h : firstStep value slope previous = .ok t) : t.Forward := by
  unfold firstStep at h
  obtain ⟨q, -, h⟩ := Except.bind_eq_ok.mp h
  cases h
  split
  · exact ⟨1, congrArg number decimal_one, zero_le_one⟩
  · rename_i hn
    rw [Bool.or_eq_true, decide_eq_true_iff, not_or, Bool.not_eq_true', Bool.not_eq_false] at hn
    obtain ⟨x, rfl, hx⟩ := forward_of_tried hn.1 hn.2
    refine ⟨min 1 x, ?_, le_min zero_le_one hx⟩
    rw [decimal, smaller_number, smaller_eq, decimal_one]

theorem inherited_forward : Inherited (Partial.Forward (K := K)) where
  double := by
    rintro t ⟨x, rfl, hx⟩
    exact ⟨x * 2.0, rfl, mul_nonneg hx (by norm_num)⟩
  inside := by
    intro lo hi t hlo hhi h
    obtain ⟨a, ha, ha0⟩ := hlo
    obtain ⟨b, hb, hb0⟩ := hhi
    have h := cases_of_interpolate h
    simp only [ha, hb, decimal, number_sub, number_mul, number_add, abs_number, smaller_number,
      larger_number, smaller_eq, abs_eq, decimal_half, decimal_tenth] at h
    rcases h with rfl | ⟨hle, -⟩
    · exact ⟨_, rfl, by linarith⟩
    · obtain ⟨y, x, hy, rfl, hyx⟩ := le_iff.mp hle
      cases hy
      have hmin : 0 ≤ min a b := le_min ha0 hb0
      have habs : 0 ≤ |b - a| := abs_nonneg (b - a)
      exact ⟨x, rfl, by linarith⟩

namespace Wolfe
variable {o : Options (Partial K)} {trial : Partial K}

/-- Where value and slope are numbers at the start, all that a step is tested with is. -/
theorem numbers_of_starts {m : K} (hv : l.value 0.0 = .ok (number v))
    (hm : l.slope 0.0 = .ok (number m)) (hs : Starts l o c trial) :
    ∃ k, c = ⟨number v, number m, number k, o.c2⟩ ∧ m < 0 ∧ 0 < k := by
  obtain ⟨z, k, hz, hk, hpos⟩ := lt_iff.mp hs.ordered.1
  cases hz
  have hvalue := Except.ok.inj (hs.value.symm.trans hv)
  have hslope := Except.ok.inj (hs.slope.symm.trans hm)
  have hneg := hs.descends
  rw [hslope, decimal, ge_iff_le, number_le, decimal_zero, not_le] at hneg
  rw [decimal_zero] at hpos
  obtain ⟨value, slope, c1, c2⟩ := c
  exact ⟨k, by rw [← hvalue, ← hslope, ← hk, ← hs.c1, ← hs.c2], hneg, hpos⟩

theorem forward_first (hp : o.previous = none → o.alpha0.Forward) (hs : Starts l o c trial) :
    trial.Forward := hs.trial_of hp fun _ => forward_of_firstStep

/-- A value that does not fail the test for sufficient decrease is undefined or no greater. -/
theorem le_of_not_tooHigh {s : Sample (Partial K)} {m k w : K} {c2 : Partial K} (hm : m < 0)
    (hk : 0 < k) (hs : s.step.Forward)
    (h : ¬ (⟨number v, number m, number k, c2⟩ : Conditions (Partial K)).TooHigh s)
    (hw : s.value = number w) : w ≤ v := by
  obtain ⟨t, ht, ht0⟩ := hs
  unfold Conditions.TooHigh at h
  simp only [ht, hw, number_mul, number_add, gt_iff_lt, number_lt, not_lt] at h
  have hp : k * t * m ≤ 0 :=
    mul_nonpos_of_nonneg_of_nonpos (mul_nonneg hk.le ht0) hm.le
  linarith

theorem admits_start {m : K} (hp : o.previous = none → o.alpha0.Forward)
    (hv : l.value 0.0 = .ok (number v)) (hm : l.slope 0.0 = .ok (number m))
    (hs : Starts l o c trial) : c.Admits Partial.Forward ⟨0.0, c.value⟩ ∧ trial.Forward := by
  obtain ⟨k, rfl, -, -⟩ := numbers_of_starts hv hm hs
  refine ⟨⟨⟨0, congrArg number decimal_zero, le_rfl⟩, ?_⟩, forward_first hp hs⟩
  unfold Conditions.TooHigh
  simp

/-- A Wolfe search ends ahead of its start, and no higher if the value at its end is defined. -/
theorem forward_of_search {m : K} (hp : o.previous = none → o.alpha0.Forward)
    (hv : l.value 0.0 = .ok (number v)) (hm : l.slope 0.0 = .ok (number m))
    (h : search l o = ⟨.ok r, es⟩) : r.step.Forward ∧ ∀ w, r.value = number w → w ≤ v := by
  have htried : ∀ {t s : Partial K}, ¬ (!isFinite t || t ≤ 0.0 || t == s) → t.Forward := by
    intro t s hu
    rw [Bool.or_eq_true, Bool.or_eq_true, not_or, not_or, Bool.not_eq_true', Bool.not_eq_false,
      decide_eq_true_iff] at hu
    exact forward_of_tried hu.1.1 hu.1.2
  obtain ⟨c, trial, hs, hstep, hhigh⟩ :=
    admits_search inherited_forward (admits_start hp hv hm) htried h
  obtain ⟨k, rfl, hneg, hpos⟩ := numbers_of_starts hv hm hs
  exact ⟨hstep, fun w hw => le_of_not_tooHigh hneg hpos hstep hhigh hw⟩

end Wolfe

namespace Bracket
variable {s s' : Bracket (Partial K)} {o : Options (Partial K)} {growLimit a b : Partial K}
  {count : ℕ}

omit [IsStrictOrderedRing K]

/-- The value in the middle is no greater than that one, and the one after it is a number. -/
def Below (v : K) (s : Bracket (Partial K)) : Prop :=
  (∃ w, s.fb = number w ∧ w ≤ v) ∧ s.fc.IsNumber

theorem Below.descends (h : s.Below v) (hc : ¬ s.fb ≤ s.fc) : ∃ w, s.fc = number w ∧ w ≤ v := by
  obtain ⟨⟨x, hx, hxv⟩, y, hy⟩ := h
  rw [hx, hy, number_le, not_le] at hc
  exact ⟨y, hy, hc.le.trans hxv⟩

theorem below_next (hs : s.Below v) (hc : ¬ s.fb ≤ s.fc) (hd : Defined l es)
    (h : Moves l growLimit s (.next s') count es) : s'.Below v := by
  have hfc := hs.descends hc
  cases h with
  | insideUseless hu hi hv hl hh hw => exact ⟨hfc, hd _ _ (by simp) hw⟩
  | outsideLower hu hi ho hv hl hw =>
    obtain ⟨x, y, rfl, hy, hxy⟩ := lt_iff.mp hl
    obtain ⟨w, hfc, hwv⟩ := hfc
    cases hy.symm.trans hfc
    exact ⟨⟨x, rfl, hxy.le.trans hwv⟩, hd _ _ (by simp) hw⟩
  | outsideHigher hu hi ho hv hl => exact ⟨hfc, hd _ _ (by simp) hv⟩
  | farthest hu hi ho hf hv => exact ⟨hfc, hd _ _ (by simp) hv⟩
  | back hu hi ho hf hw => exact ⟨hfc, hd _ _ (by simp) hw⟩

theorem below_found (hs : s.Below v) (hc : ¬ s.fb ≤ s.fc)
    (h : Moves l growLimit s (.found s') count es) : ∃ w, s'.fb = number w ∧ w ≤ v := by
  cases h with
  | insideLower hu hi hv hl =>
    obtain ⟨x, y, rfl, hy, hxy⟩ := lt_iff.mp hl
    obtain ⟨w, hfc, hwv⟩ := hs.descends hc
    cases hy.symm.trans hfc
    exact ⟨x, rfl, hxy.le.trans hwv⟩
  | insideHigher hu hi hv hl hh => exact hs.1

theorem below_initial (ha : l.value a = .ok (number v)) (hd : Defined l es)
    (h : initial l a b = ⟨.ok s, es⟩) : s.Below v := by
  obtain ⟨hlies, fa, fb, hfa, hfb, -, hm⟩ := initial_eq_ok h
  rw [events_initial h] at hd
  cases hfa.symm.trans ha
  refine ⟨?_, hd s.c s.fc (by simp) hlies.c⟩
  rcases hm with ⟨-, -, -, -, hv⟩ | ⟨hlt, -, -, -, hv⟩
  · exact ⟨v, hv, le_rfl⟩
  · obtain ⟨w, rfl⟩ := hd b fb (by simp) hfb
    rw [gt_iff_lt, number_lt, not_lt] at hlt
    exact ⟨w, hv, hlt⟩

/-- If all values that were tried are numbers, the one in the middle is no greater than the first. -/
theorem below_of_search (ha : l.value a = .ok (number v))
    (h : search l a b o = ⟨.ok (s, count), es⟩) (hd : Defined l es) :
    ∃ w, s.fb = number w ∧ w ≤ v := by
  obtain ⟨s₀, es₁, es₂, hi, hr, rfl⟩ := initial_of_search h
  have hs₀ := below_initial ha hd.left hi
  have hends := ends_run l o o.maxIter.toNat s₀ 3
  rw [hr] at hends
  have hkeep : ∀ {k s es}, Trail (Expands l o.growLimit) s₀ k s es → Defined l es → s.Below v := by
    intro k s es ht
    refine ht.keeps (I := fun s es => Defined l es → s.Below v) ?_ fun _ => hs₀
    rintro s s' es es' hs ⟨hc, count, hx⟩ hd
    exact below_next (hs hd.left) hc hd.right (moves_of_expand hx)
  cases hends with
  | enclosed hk ht hc => exact (hkeep ht hd.right).1
  | found hk ht hc hx =>
    exact below_found (hkeep ht hd.right.left) hc (moves_of_expand hx)

end Bracket

namespace Brent
variable {o : Options (Partial K)}

omit [IsStrictOrderedRing K] in
theorem value_le_of_search {a b c : Partial K} {w : K} (h : search l a b c (number w) o = ⟨.ok r, es⟩) :
    ∃ y, r.value = number y ∧ y ≤ w := by
  obtain ⟨t, ⟨y, hy, hle⟩, hr⟩ := run_keeps (I := fun s => ∃ y, s.fx = number y ∧ y ≤ w)
    (fun hs _ hm => by
      obtain ⟨y, hy, hle⟩ := hs
      rcases best_step hm with ⟨-, hlt⟩ | ⟨-, heq⟩
      · obtain ⟨z, y', hz, hy', hzy⟩ := le_iff.mp hlt
        cases hy.symm.trans hy'
        exact ⟨z, hz, hzy.trans hle⟩
      · exact ⟨y, heq.trans hy, hle⟩) (s := .initial a b c (number w)) ⟨w, rfl, le_rfl⟩ h
  rw [hr]
  exact ⟨y, hy, hle⟩

omit [IsStrictOrderedRing K] in
/-- The search without derivatives ends at a number with a number for its value, and no higher than
it started if all values that were tried are numbers. -/
theorem isNumber_of_bracketAndSearch (ht : o.tol.IsNumber) (hv : l.value 0.0 = .ok (number v))
    (h : bracketAndSearch l o = ⟨.ok r, es⟩) :
    r.step.IsNumber ∧ ∃ w, r.value = number w ∧ (Defined l es → w ≤ v) := by
  obtain ⟨s, nfev, found, es₁, es₂, hb, hf, rfl, rfl⟩ := bracket_of_search h
  obtain ⟨hplaced, w, hw⟩ := Bracket.placed_of_search ⟨100.0, rfl⟩ ⟨0.0, rfl⟩ ⟨1.0, rfl⟩ hb
  have hstep := isNumber_of_search ht hplaced.b hf
  rw [hw] at hf
  obtain ⟨y, hy, hle⟩ := value_le_of_search hf
  refine ⟨hstep, y, hy, fun hd => ?_⟩
  obtain ⟨w', hw', hwv⟩ := Bracket.below_of_search hv hb hd.left
  cases hw.symm.trans hw'
  exact hle.trans hwv

end Brent

theorem along_numbers_zero (x d : Vector K n) : along (numbers x) (numbers d) 0.0 = numbers x := by
  rw [decimal, along_numbers, decimal_zero, along_zero]

/-- With undefined values about, a search from a point with a number for its value ends at a point
of numbers, with the value there. The Wolfe search, if the slope at the start is a number too, ends
no higher if the value at its end is not undefined. The search without derivatives ends with a
number, and no higher if it has met no undefined value. -/
theorem LineSearch.minimize_partial (f : Objective (Partial K) n) (g : Gradient (Partial K) n)
    (x d : Vector K n) (hv : f (numbers x) = .ok (number v)) (s : LineSearch (Partial K))
    (hint : Option (Partial K)) :
    let call := s.minimize f g (numbers x) (numbers d) hint
    let slope := g (numbers x) >>= (slopeAlong · (numbers d))
    ∀ r, call.found.outcome = .ok r →
      (∀ o m, s.strategy = .wolfe o → (hint = none → o.alpha0.Forward) → slope = .ok (number m) →
        ∃ t, 0 ≤ t ∧ r.step = number t ∧ call.point = numbers (along x d t) ∧
          f call.point = .ok r.value ∧ ∀ w, r.value = number w → w ≤ v) ∧
      ∀ o, s.strategy = .brent o → o.tol.IsNumber →
        ∃ t w, r.step = number t ∧ call.point = numbers (along x d t) ∧
          f call.point = .ok r.value ∧ r.value = number w ∧
          (w ≤ v ∨ ∃ p negative, .value p ∈ call.found.events ∧ f p = .ok (undefined negative)) := by
  intro call slope r h
  obtain ⟨es, hfound, hes⟩ : ∃ es,
      s.strategy.search s.searches (.through f g (numbers x) (numbers d)) hint = ⟨.ok r, es⟩ ∧
        call.found.events = es.map (Probe.toEvent (numbers x) (numbers d)) :=
    ⟨_, Traced.eq_of_outcome h, rfl⟩
  have hpoint : call.point = along (numbers x) (numbers d) r.step :=
    (LineSearch.minimize_of_ok h).1
  have hzero : (Line.through f g (numbers x) (numbers d)).value 0.0 = .ok (number v) := by
    change f (along (numbers x) (numbers d) 0.0) = _
    rw [along_numbers_zero, hv]
  refine ⟨?_, ?_⟩
  · intro o m hs hp hm
    have hslope : (Line.through f g (numbers x) (numbers d)).slope 0.0 = .ok (number m) := by
      change (g (along (numbers x) (numbers d) 0.0) >>= _) = _
      rw [along_numbers_zero]
      exact hm
    rw [hs] at hfound
    obtain ⟨⟨t, ht, ht0⟩, hle⟩ := Wolfe.forward_of_search hp hzero hslope hfound
    refine ⟨t, ht0, ht, ?_, ?_, hle⟩
    · rw [hpoint, ht, along_numbers]
    · rw [hpoint]
      exact Wolfe.liesOn_search hfound
  · intro o hs htol
    rw [hs] at hfound
    obtain ⟨⟨t, ht⟩, w, hw, hle⟩ := Brent.isNumber_of_bracketAndSearch htol hzero hfound
    refine ⟨t, w, ht, ?_, ?_, hw, ?_⟩
    · rw [hpoint, ht, along_numbers]
    · rw [hpoint]
      exact Brent.liesOn_bracketAndSearch hfound
    · by_cases hd : Defined (.through f g (numbers x) (numbers d)) es
      · exact .inl (hle hd)
      · obtain ⟨t, negative, hmem, hy⟩ := exists_undefined hd
        rw [hes]
        exact .inr ⟨_, negative, List.mem_map_of_mem hmem, hy⟩

/-- A function of a number as an objective, undefined where its argument is. -/
def objectiveOf (φ : ℚ → Partial ℚ) : Objective (Partial ℚ) 1 := fun x =>
  match x.get 0 with
  | number t => .ok (φ t)
  | undefined negative => .ok (undefined negative)

theorem objectiveOf_numbers (φ : ℚ → Partial ℚ) (t : ℚ) :
    objectiveOf φ (numbers #v[t]) = .ok (φ t) := by
  have hget : (numbers #v[t]).get 0 = number t := by
    rw [get_apply]
    simp [numbers]
  rw [objectiveOf, hget]

/-- A parabola that ends soon after its minimum. -/
def cutParabola (t : ℚ) : Partial ℚ :=
  if t ≤ 1 / 2 then number ((t - 1 / 4) ^ 2) else undefined false

def cutSlope (t : ℚ) : Partial ℚ :=
  if t ≤ 1 / 2 then number (2 * (t - 1 / 4)) else undefined false

/-- Zero up to a gap, and one behind it. -/
def gappedLevel (t : ℚ) : Partial ℚ :=
  if t ≤ 0 then number 0 else if t < 2 then undefined false else number 1

def cutGradient : Gradient (Partial ℚ) 1 := fun x =>
  return .ofVector #v[← objectiveOf cutSlope x]

theorem slope_cutGradient : (cutGradient (numbers #v[0]) >>= (slopeAlong · (numbers #v[1]))) =
    .ok (number (-1 / 2)) := by
  rw [cutGradient, objectiveOf_numbers]
  change slopeAlong (.ofVector #v[cutSlope 0]) (numbers #v[1]) = _
  rw [slopeAlong, Tensor.toVector?_ofVector]
  exact congrArg Except.ok (by decide +kernel)

theorem objective_cutParabola :
    objectiveOf cutParabola (numbers #v[0]) = .ok (number (1 / 16)) := by
  rw [objectiveOf_numbers]
  exact congrArg Except.ok (by decide +kernel)

/-- The Wolfe search from zero on the parabola. -/
def searchParabola : LineSearch.Result (Partial ℚ) 1 :=
  (LineSearch.ofStrategy (.wolfe .standard)).minimize (objectiveOf cutParabola) cutGradient
    (numbers #v[0]) (numbers #v[1]) none

/-- The search without derivatives from zero on the levels. -/
def searchLevel : LineSearch.Result (Partial ℚ) 1 :=
  (LineSearch.ofStrategy (.brent .standard)).minimize (objectiveOf gappedLevel)
    (fun _ => .ok (.ofVector (zeros 1))) (numbers #v[0]) (numbers #v[1]) none

theorem outcome_parabola : ∃ r negative, searchParabola.found.outcome = .ok r ∧
    r.value = undefined negative := by
  have hcheck : (match searchParabola.found.outcome with
      | .ok r => decide (r.value = undefined false)
      | .error _ => false) = true := by decide +kernel
  split at hcheck
  · exact ⟨_, false, ‹_›, of_decide_eq_true hcheck⟩
  · cases hcheck

theorem outcome_level : ∃ r, searchLevel.found.outcome = .ok r ∧ r.value = number 1 := by
  have hcheck : (match searchLevel.found.outcome with
      | .ok r => decide (r.value = number 1)
      | .error _ => false) = true := by decide +kernel
  split at hcheck
  · exact ⟨_, ‹_›, of_decide_eq_true hcheck⟩
  · cases hcheck

/-- The search on the parabola ends at a point of numbers. That on the levels ends above its start,
so that it has met an undefined value. -/
theorem LineSearch.minimize_partial_cut :
    (∃ r t, searchParabola.found.outcome = .ok r ∧ 0 ≤ t ∧ r.step = number t ∧
      searchParabola.point = numbers (along #v[0] #v[1] t)) ∧
    ∃ p negative, .value p ∈ searchLevel.found.events ∧
      objectiveOf gappedLevel p = .ok (undefined negative) := by
  constructor
  · obtain ⟨r, -, hr, -⟩ := outcome_parabola
    obtain ⟨t, ht, hstep, hpoint, -⟩ := (LineSearch.minimize_partial _ cutGradient #v[0] #v[1]
      objective_cutParabola (.ofStrategy (.wolfe .standard)) none r hr).1
      .standard (-1 / 2) rfl (fun _ => ⟨1, by decide +kernel, zero_le_one⟩) slope_cutGradient
    exact ⟨r, t, hr, ht, hstep, hpoint⟩
  · obtain ⟨r, hr, hone⟩ := outcome_level
    obtain ⟨t, w, -, -, -, hw, hle⟩ := (LineSearch.minimize_partial (v := 0) _
      (fun _ => .ok (.ofVector (zeros 1))) #v[0] #v[1] (objectiveOf_numbers gappedLevel 0)
      (.ofStrategy (.brent .standard)) none r hr).2 .standard rfl ⟨_, rfl⟩
    cases hone.symm.trans hw
    exact hle.resolve_left (by decide)

/-- From a number and a negative slope the Wolfe search ends with an undefined value, and from a
number the search without derivatives ends with a greater one. -/
theorem LineSearch.minimize_trades :
    (objectiveOf cutParabola (numbers #v[0]) = .ok (number (1 / 16)) ∧
      (cutGradient (numbers #v[0]) >>= (slopeAlong · (numbers #v[1]))) = .ok (number (-1 / 2)) ∧
      ∃ r negative, searchParabola.found.outcome = .ok r ∧ r.value = undefined negative) ∧
    objectiveOf gappedLevel (numbers #v[0]) = .ok (number 0) ∧
      ∃ r, searchLevel.found.outcome = .ok r ∧ r.value = number 1 :=
  ⟨⟨objective_cutParabola, slope_cutGradient, outcome_parabola⟩,
    objectiveOf_numbers gappedLevel 0, outcome_level⟩

end Descent
