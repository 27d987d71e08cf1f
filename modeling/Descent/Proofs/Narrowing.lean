import Mathlib
import Descent.Proofs.Certificate

/-! In exact arithmetic, how the interval narrows in which the Wolfe search zooms. -/
namespace Descent
variable {K : Type} [Field K] [LinearOrder K] [IsStrictOrderedRing K]

/-- Factors of one sign may be exchanged in a negative product. -/
theorem mul_neg_of_same_sign {a x y : K} (h : a * x < 0) (hxy : 0 < y * x) : a * y < 0 := by
  rcases pos_and_pos_or_neg_and_neg_of_mul_pos hxy with ⟨hy, hx⟩ | ⟨hy, hx⟩
  · exact mul_neg_of_neg_of_pos ((neg_iff_pos_of_mul_neg h).mpr hx) hy
  · exact mul_neg_of_pos_of_neg ((pos_iff_neg_of_mul_neg h).mpr hx) hy

variable [SquareRoot K] {l : Line K} {c : Conditions K} {es : List (Probe K)}

/-- A slope of zero is small. -/
theorem Conditions.ne_zero_of_not_flat {d : K} (h2 : 0 ≤ c.c2) (hd : c.slope ≤ 0) (hf : ¬ c.Flat d) :
    d ≠ 0 := by
  rintro rfl
  apply hf
  change |(0 : K)| ≤ -c.c2 * c.slope
  rw [abs_zero]
  exact mul_nonneg_of_nonpos_of_nonpos (neg_nonpos.mpr h2) hd

namespace Zoom
variable {s s' z : State K} {t : K} {k m : ℕ}

/-- A step strictly between the ends, at least a tenth of the interval away from either. -/
structure State.Inner (s : State K) (t : K) : Prop where
  mem : t ∈ Set.uIoo s.lo.step s.hi.step
  lo : 1 / 10 * |s.hi.step - s.lo.step| ≤ |t - s.lo.step|
  hi : 1 / 10 * |s.hi.step - s.lo.step| ≤ |s.hi.step - t|

theorem inner_of_interpolate (hne : s.lo.step ≠ s.hi.step) (h : interpolate s.lo s.hi = .ok t) :
    s.Inner t := by
  obtain ⟨t', ht', hle, hge⟩ := interpolate_inner s.lo s.hi
  rw [h] at ht'
  cases ht'
  have hw : 0 < 1 / 10 * |s.hi.step - s.lo.step| :=
    mul_pos (by norm_num) (abs_pos.mpr (sub_ne_zero.mpr hne.symm))
  have hmem : t ∈ Set.uIoo s.lo.step s.hi.step :=
    ⟨(lt_add_of_pos_right _ hw).trans_le hle, hge.trans_lt (sub_lt_self _ hw)⟩
  rcases le_total s.lo.step s.hi.step with h | h
  · rw [min_eq_left h] at hle
    rw [max_eq_right h] at hge
    exact ⟨hmem, (le_sub_iff_add_le'.mpr hle).trans (le_abs_self _),
      (le_sub_comm.mp hge).trans (le_abs_self _)⟩
  · rw [min_eq_right h] at hle
    rw [max_eq_left h] at hge
    refine ⟨hmem, ?_, ?_⟩
    · rw [abs_sub_comm t]
      exact (le_sub_comm.mp hge).trans (le_abs_self _)
    · rw [abs_sub_comm _ t]
      exact (le_sub_iff_add_le'.mpr hle).trans (le_abs_self _)

namespace State.Inner
variable (h : s.Inner t)
include h

/-- The step divides the interval into two parts of its own direction. -/
theorem parts : 0 < (t - s.lo.step) * (s.hi.step - s.lo.step) ∧
    0 < (s.hi.step - t) * (s.hi.step - s.lo.step) := by
  obtain ⟨hlt, hgt⟩ := h.mem
  rcases le_total s.lo.step s.hi.step with hle | hle
  · rw [inf_eq_left.mpr hle] at hlt
    rw [sup_eq_right.mpr hle] at hgt
    constructor <;> apply mul_pos <;> linarith
  · rw [inf_eq_right.mpr hle] at hlt
    rw [sup_eq_left.mpr hle] at hgt
    constructor <;> apply mul_pos_of_neg_of_neg <;> linarith

theorem abs_parts : |t - s.lo.step| + |s.hi.step - t| = |s.hi.step - s.lo.step| := by
  have hsum : s.hi.step - s.lo.step = (t - s.lo.step) + (s.hi.step - t) := by ring
  obtain ⟨hlo, hhi⟩ := h.parts
  rw [hsum, eq_comm, abs_add_eq_add_abs_iff]
  rcases pos_and_pos_or_neg_and_neg_of_mul_pos hlo with ⟨hlo, hw⟩ | ⟨hlo, hw⟩
  · exact .inl ⟨hlo.le, ((pos_iff_pos_of_mul_pos hhi).mpr hw).le⟩
  · exact .inr ⟨hlo.le, ((neg_iff_neg_of_mul_pos hhi).mpr hw).le⟩

theorem abs_lo_le : |t - s.lo.step| ≤ 9 / 10 * |s.hi.step - s.lo.step| := by
  have hsum := h.abs_parts
  have hhi := h.hi
  linarith

theorem abs_hi_le : |s.hi.step - t| ≤ 9 / 10 * |s.hi.step - s.lo.step| := by
  have hsum := h.abs_parts
  have hlo := h.lo
  linarith

end State.Inner

/-- Both ends inside the interval, and so many times a tenth of its width gone. -/
structure State.Within (z : State K) (k : ℕ) (s : State K) : Prop where
  lo : s.lo.step ∈ Set.uIcc z.lo.step z.hi.step
  hi : s.hi.step ∈ Set.uIcc z.lo.step z.hi.step
  width : |s.hi.step - s.lo.step| ≤ (9 / 10) ^ k * |z.hi.step - z.lo.step|

omit [IsStrictOrderedRing K] in
theorem State.Within.refl (z : State K) : State.Within z 0 z where
  lo := Set.left_mem_uIcc
  hi := Set.right_mem_uIcc
  width := by rw [pow_zero, one_mul]

theorem State.Within.trans (h : State.Within z k s) (h' : State.Within s m s') :
    State.Within z (m + k) s' where
  lo := Set.uIcc_subset_uIcc h.lo h.hi h'.lo
  hi := Set.uIcc_subset_uIcc h.lo h.hi h'.hi
  width := by
    have hp : (0 : K) ≤ (9 / 10) ^ m := by positivity
    calc |s'.hi.step - s'.lo.step|
      _ ≤ (9 / 10) ^ m * |s.hi.step - s.lo.step| := h'.width
      _ ≤ (9 / 10) ^ m * ((9 / 10) ^ k * |z.hi.step - z.lo.step|) :=
        mul_le_mul_of_nonneg_left h.width hp
      _ = (9 / 10) ^ (m + k) * |z.hi.step - z.lo.step| := by rw [pow_add, mul_assoc]

/-- The ends lie on the line, the better one has sufficient decrease, and the line falls from there
into the interval. -/
structure State.Slopes (l : Line K) (c : Conditions K) (s : State K) : Prop where
  liesOn : s.LiesOn l
  ahead : s.Ahead c
  inward : s.lo.slope * (s.hi.step - s.lo.step) < 0

omit [IsStrictOrderedRing K] in
theorem State.Slopes.ne (h : s.Slopes l c) : s.lo.step ≠ s.hi.step := by
  intro heq
  have hin := h.inward
  rw [heq, sub_self, mul_zero] at hin
  exact lt_irrefl 0 hin

theorem State.Slopes.exists_inner (h : s.Slopes l c) :
    ∃ t, interpolate s.lo s.hi = .ok t ∧ s.Inner t := by
  obtain ⟨t, ht, -⟩ := interpolate_inner s.lo s.hi
  exact ⟨t, ht, inner_of_interpolate h.ne ht⟩

/-- Whichever end a trial replaces, and whether or not they change sides, a tenth of the interval is
gone at least. -/
theorem within_narrows (hs : s.Slopes l c) (h : Narrows l c s s' es) : State.Within s 1 s' := by
  cases h with
  | shortened ht hv hr =>
    have hin := inner_of_interpolate hs.ne ht
    refine ⟨Set.left_mem_uIcc, Set.uIoo_subset_uIcc_self hin.mem, ?_⟩
    rw [pow_one]
    exact hin.abs_lo_le
  | moved ht hv hr hd hf =>
    have hin := inner_of_interpolate hs.ne ht
    split
    · refine ⟨Set.uIoo_subset_uIcc_self hin.mem, Set.left_mem_uIcc, ?_⟩
      rw [pow_one, abs_sub_comm]
      exact hin.abs_lo_le
    · refine ⟨Set.uIoo_subset_uIcc_self hin.mem, Set.right_mem_uIcc, ?_⟩
      rw [pow_one]
      exact hin.abs_hi_le

theorem slopes_narrows (h2 : 0 ≤ c.c2) (hd : c.slope ≤ 0) (hs : s.Slopes l c)
    (h : Narrows l c s s' es) : s'.Slopes l c := by
  refine ⟨liesOn_moves hs.liesOn h, ahead_moves hs.ahead h, ?_⟩
  cases h with
  | shortened ht hv hr =>
    exact mul_neg_of_same_sign hs.inward (inner_of_interpolate hs.ne ht).parts.1
  | @moved t v d ht hv hr hd' hf =>
    obtain ⟨hlo, hhi⟩ := (inner_of_interpolate hs.ne ht).parts
    have hne : d * (s.hi.step - s.lo.step) ≠ 0 :=
      mul_ne_zero (Conditions.ne_zero_of_not_flat h2 hd hf) (sub_ne_zero.mpr hs.ne.symm)
    dsimp only
    rw [decimal_zero]
    split
    · -- the line rises toward the far end, so the minimum is on the side of the old better end
      rename_i hge
      have hneg : -d * (s.hi.step - s.lo.step) < 0 := by
        rw [neg_mul]
        exact neg_neg_of_pos (lt_of_le_of_ne hge hne.symm)
      have hback : -d * (t - s.lo.step) < 0 := mul_neg_of_same_sign hneg hlo
      calc d * (s.lo.step - t)
        _ = -d * (t - s.lo.step) := by ring
        _ < 0 := hback
    · rename_i hlt
      exact mul_neg_of_same_sign (not_le.mp hlt) hhi

/-- As long as zooming goes on, each trial keeps nine tenths of the interval at most. -/
theorem narrows_trail (h2 : 0 ≤ c.c2) (hd : c.slope ≤ 0) (hz : z.Slopes l c)
    (h : Trail (Narrows l c) z k s es) : s.Slopes l c ∧ State.Within z k s := by
  induction h with
  | refl => exact ⟨hz, .refl z⟩
  | @tail k s s' es es' _ hn ih =>
    obtain ⟨hs, hw⟩ := ih
    refine ⟨slopes_narrows h2 hd hs hn, ?_⟩
    rw [Nat.add_comm]
    exact hw.trans (within_narrows hs hn)

end Zoom

namespace Wolfe

namespace Doubling
variable {s s' : State K} {z : Zoom.State K} {trial : K} {k budget : ℕ}

/-- The line falls from the last step, and the next trial lies ahead of it. -/
structure State.Slopes (l : Line K) (c : Conditions K) (s : State K) : Prop where
  touches : s.last.Touches l
  ahead : s.Ahead c
  falls : s.last.slope < 0
  onward : s.last.step < s.trial

theorem slopes_descends (hs : s.Slopes l c) (h : Descends l c s s' es) : s'.Slopes l c := by
  cases h with
  | descending hv hr hd hf hp =>
    have hpos : 0 < s.trial := hs.ahead.1.1.trans_lt hs.onward
    have hdouble : s.trial < s.trial * 2.0 := by
      rw [decimal_two]
      linarith
    rw [decimal_zero, not_le] at hp
    refine ⟨⟨hv, hd⟩, ⟨⟨hpos.le, fun hh => hr (.inl hh)⟩, ?_⟩, hp, hdouble⟩
    exact (hpos.trans hdouble).le

/-- Between a step from which the line falls and one that is too high or from which it rises, the
better end falls toward the other. -/
theorem slopes_bracketed (h2 : 0 ≤ c.c2) (hd : c.slope ≤ 0) (hs : s.Slopes l c)
    (h : Moves l c s (.bracketed z) es) : z.Slopes l c := by
  refine ⟨liesOn_moves hs.touches h, ahead_bracketed hs.ahead h, ?_⟩
  cases h with
  | high hv hr => exact mul_neg_of_neg_of_pos hs.falls (sub_pos.mpr hs.onward)
  | rising hv hr hd' hf hp =>
    rw [decimal_zero] at hp
    have hpos := lt_of_le_of_ne hp (Conditions.ne_zero_of_not_flat h2 hd hf).symm
    exact mul_neg_of_pos_of_neg hpos (sub_neg.mpr hs.onward)

end Doubling

variable {o : Options K} {trial : K}

theorem slopes_initial (ht : 0 < trial) (h : Starts l o c trial) :
    (Doubling.State.initial c trial).Slopes l c where
  touches := ⟨h.value, h.slope⟩
  ahead := ⟨c.sufficient_start, ht.le⟩
  falls := h.slope_neg
  onward := by
    change 0.0 < trial
    rwa [decimal_zero]

theorem pos_of_starts (ha : o.previous = none → 0 < o.alpha0) (h : Starts l o c trial) :
    0 < trial := h.trial_of ha fun _ => firstStep_pos

/-- Where a search comes to zoom into an interval, it goes on from there by trials. After any number
of them the ends have their own values, and the better one its own slope; it has sufficient decrease,
and the line falls from there into the interval; both ends are inside the interval of the beginning,
of whose width each trial has left nine tenths at most; and the next trial is made strictly inside,
a tenth of the interval away from either end. -/
theorem search_closes_in (l : Line K) (o : Options K) {z : Zoom.State K}
    (ha : o.previous = none → 0 < o.alpha0) (hs : Starts l o c trial)
    (hz : Doubling.verdict l c o.maxIter.toNat (.initial c trial) = ⟨.ok (.bracketed z), es⟩) :
    let zoom := Zoom.run l c o.maxZoom.toNat z
    find l o =
        ⟨zoom.outcome.map (c, ·), .value 0.0 :: .slope 0.0 :: (es ++ zoom.events)⟩ ∧
      (∀ p ∈ zoom.events, (∃ m, p = .notice m) ∨ ∃ k s, k < o.maxZoom.toNat ∧
        Zoom.after l c k z = some s ∧ p ∈ (Zoom.step l c s).events) ∧
      ∀ k s, Zoom.after l c k z = some s →
        s.LiesOn l ∧ s.lo.value ≤ c.value + c.c1 * s.lo.step * c.slope ∧
          s.lo.slope * (s.hi.step - s.lo.step) < 0 ∧ Zoom.State.Within z k s ∧
          ∃ t, s.Inner t ∧ ((Zoom.step l c s).events = [.value t] ∨
            (Zoom.step l c s).events = [.value t, .slope t]) := by
  intro zoom
  refine ⟨?_, fun p hp => Zoom.cases_of_mem_run hp, ?_⟩
  · rw [find_of_starts hs, Doubling.run_eq, hz, Traced.bind_ok rfl]
    rfl
  intro k s hk
  obtain ⟨h1, h12, -⟩ := hs.constants
  have h2 : 0 ≤ c.c2 := (h1.trans h12).le
  have hd : c.slope ≤ 0 := hs.slope_neg.le
  obtain ⟨m, s₀, es₁, es₂, -, hdoublings, hm⟩ := Doubling.trail_of_verdict hz
  have hs₀ : s₀.Slopes l c := hdoublings.keeps (I := fun s _ => s.Slopes l c)
    Doubling.slopes_descends (slopes_initial (pos_of_starts ha hs) hs)
  have hz : z.Slopes l c := Doubling.slopes_bracketed h2 hd hs₀ hm
  obtain ⟨es', ht⟩ := Zoom.trail_of_after hk
  obtain ⟨hs', hw⟩ := Zoom.narrows_trail h2 hd hz ht
  obtain ⟨t, hti, hin⟩ := hs'.exists_inner
  exact ⟨hs'.liesOn, not_lt.mp hs'.ahead.1.2, hs'.inward, hw, t, hin, Zoom.events_step hti⟩

/-- Along a cubic the first trial is too far. Of two trials in the interval the first replaces the
far end; after the second the ends have changed sides. -/
theorem search_closes_in_cubic :
    let f : Objective ℚ 1 := fun x => .ok (-x.get 0 + 3 * x.get 0 ^ 2 - 2 * x.get 0 ^ 3)
    let g : Gradient ℚ 1 := fun x => .ok (.ofVector #v[-1 + 6 * x.get 0 - 6 * x.get 0 ^ 2])
    let l := Line.through f g #v[0] #v[1]
    let o : Options ℚ := .standard
    let c : Conditions ℚ := ⟨0, -1, o.c1, o.c2⟩
    Starts l o c 1 ∧ ∃ z es s,
      Doubling.verdict l c o.maxIter.toNat (.initial c 1) = ⟨.ok (.bracketed z), es⟩ ∧
      Zoom.after l c 2 z = some s ∧
      (z.lo.step, z.hi.step, s.lo.step, s.hi.step) = (0, 1, 1 / 4, 0) ∧
      s.lo.slope * (s.hi.step - s.lo.step) < 0 ∧ Zoom.State.Within z 2 s ∧
      ∃ t, s.Inner t ∧ ((Zoom.step l c s).events = [.value t] ∨
        (Zoom.step l c s).events = [.value t, .slope t]) := by
  intro f g l o c
  have hl := Line.follows_single (fun y : ℚ => -y + 3 * y ^ 2 - 2 * y ^ 3)
    (fun y => -1 + 6 * y - 6 * y ^ 2) 0 1
  have hs : Starts l o c 1 := by
    refine ⟨by decide +kernel, ?_, ?_, by decide +kernel, rfl, rfl, decimal_one.symm⟩
    · exact (hl.value 0.0).trans (congrArg _ (by norm_num [c]))
    · exact (hl.slope 0.0).trans (congrArg _ (by norm_num [c]))
  have hcheck : ((Doubling.interval? l c o.maxIter.toNat (.initial c 1)).bind fun z =>
      (Zoom.after l c 2 z).map fun s => (z.lo.step, z.hi.step, s.lo.step, s.hi.step)) =
        some (0, 1, 1 / 4, 0) := by decide +kernel
  simp only [Option.bind_eq_some_iff, Option.map_eq_some_iff] at hcheck
  obtain ⟨z, hi, s, hk, hsteps⟩ := hcheck
  obtain ⟨es, hz⟩ := Doubling.verdict_of_interval? hi
  obtain ⟨-, -, hclose⟩ := search_closes_in l o (fun _ => by decide +kernel) hs hz
  obtain ⟨-, -, hin, hw, htrial⟩ := hclose 2 s hk
  exact ⟨hs, z, es, s, hz, hk, hsteps, hin, hw, htrial⟩

end Wolfe
end Descent
