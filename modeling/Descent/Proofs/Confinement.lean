import Mathlib
import Descent.Proofs.Quadratic
import Descent.Proofs.Search.Division
import Descent.Proofs.Search.Trail

/-! In exact arithmetic, the interval that the search inside a bracket works in, where its trials
lie, and what it returns. -/
namespace Descent.Brent
variable {K : Type} [Field K] [LinearOrder K] [IsStrictOrderedRing K] [SquareRoot K]
  {φ : K → K} {s s' t : State K} {tol a b c d e u : K} {es es' : List (Probe K)} {l : Line K}

omit [IsStrictOrderedRing K] in
theorem least_eq (tol : K) (s : State K) : s.least tol = tol * |s.x| + 1e-10 := rfl

theorem least_pos (ht : 0 ≤ tol) (s : State K) : 0 < s.least tol := by
  rw [least_eq]
  positivity

/-- Unless both ends are close, the longer side takes more than two shortest steps. -/
theorem longer_side (h : ¬ s.Converged tol) :
    (s.middle ≤ s.x → 2 * s.least tol < s.x - s.lo) ∧
      (s.x ≤ s.middle → 2 * s.least tol < s.hi - s.x) := by
  have h : 2 * s.least tol - 1 / 2 * (s.hi - s.lo) < |s.x - s.middle| := by
    simpa [State.Converged] using h
  have hm : s.middle = 1 / 2 * (s.lo + s.hi) := by
    rw [State.middle, decimal_half]
  constructor
  · intro hx
    rw [abs_of_nonneg (sub_nonneg.mpr hx)] at h
    linarith
  · intro hx
    rw [abs_of_nonpos (sub_nonpos.mpr hx)] at h
    linarith

/-- Both ends are close where the search stops. -/
theorem close_of_converged (h : s.Converged tol) :
    s.hi - s.x ≤ 2 * s.least tol ∧ s.x - s.lo ≤ 2 * s.least tol := by
  have h : |s.x - s.middle| ≤ 2 * s.least tol - 1 / 2 * (s.hi - s.lo) := by
    simpa [State.Converged] using h
  have hm : s.middle = 1 / 2 * (s.lo + s.hi) := by
    rw [State.middle, decimal_half]
  obtain ⟨hlow, hhigh⟩ := abs_le.mp h
  constructor <;> linarith

/-- A displacement of the best point stays inside the interval, also as a shortest step. -/
structure State.Fits (s : State K) (tol d : K) : Prop where
  low : s.lo < s.x + d
  high : s.x + d < s.hi
  up : 0 ≤ d → s.x + s.least tol < s.hi
  down : d < 0 → s.lo < s.x - s.least tol

/-- The trial is inside the interval and not nearer to the best point than a shortest step. -/
theorem trial_of_fits (ht : 0 ≤ tol) (h : s.Fits tol d) (e : K) :
    s.lo < State.trial tol { s with d, e } ∧ State.trial tol { s with d, e } < s.hi ∧
      s.least tol ≤ |State.trial tol { s with d, e } - s.x| := by
  have hpos := least_pos ht s
  have htrial : State.trial tol { s with d, e } =
      if |d| ≥ s.least tol then s.x + d
      else s.x + if d < 0 then -|s.least tol| else |s.least tol| := rfl
  rw [htrial, abs_of_pos hpos]
  split
  · rename_i hd
    refine ⟨h.low, h.high, ?_⟩
    rwa [add_sub_cancel_left]
  · rename_i hshort
    obtain ⟨hdown, hup⟩ := abs_lt.mp (not_le.mp hshort)
    split
    · rename_i hd
      refine ⟨by linarith [h.down hd], by linarith [h.high], ?_⟩
      rw [add_sub_cancel_left, abs_neg, abs_of_pos hpos]
    · rename_i hd
      refine ⟨by linarith [h.low], h.up (not_lt.mp hd), ?_⟩
      rw [add_sub_cancel_left, abs_of_pos hpos]

/-- The displacement to a point at least two shortest steps from either end fits. -/
theorem fits_of_far (ht : 0 ≤ tol) (hlow : s.lo + 2 * s.least tol ≤ s.x + d)
    (hhigh : s.x + d ≤ s.hi - 2 * s.least tol) : s.Fits tol d := by
  have hpos := least_pos ht s
  constructor
  · linarith
  · linarith
  · intro hd
    linarith
  · intro hd
    linarith

theorem goldenSection_mem (hr : 1 < sqrt (5.0 : K)) (hr' : sqrt (5.0 : K) < 3) :
    0 < (goldenSection : K) ∧ (goldenSection : K) < 1 := by
  have h3 : (3.0 : K) = 3 := by norm_num
  rw [goldenSection, decimal_half, h3]
  constructor <;> linarith

section
variable (ht : 0 ≤ tol) (hlo : s.lo ≤ s.x) (hhi : s.x ≤ s.hi) (hc : ¬ s.Converged tol)
include ht hlo hhi hc

/-- A part of the longer side fits. -/
theorem fits_golden (hr : 1 < sqrt (5.0 : K)) (hr' : sqrt (5.0 : K) < 3) :
    s.Fits tol s.goldenStep.d := by
  obtain ⟨hg, hg'⟩ := goldenSection_mem hr hr'
  have hpos := least_pos ht s
  have hd : s.goldenStep.d =
      goldenSection * if s.middle ≤ s.x then s.lo - s.x else s.hi - s.x := rfl
  rw [hd]
  split
  · rename_i hx
    have hlong := (longer_side hc).1 hx
    have hneg : goldenSection * (s.lo - s.x) < 0 := mul_neg_of_pos_of_neg hg (by linarith)
    have hpart : s.lo - s.x < goldenSection * (s.lo - s.x) := by nlinarith
    constructor
    · linarith
    · linarith
    · intro h
      exact absurd h (not_le.mpr hneg)
    · intro _
      linarith
  · rename_i hx
    have hlong := (longer_side hc).2 (not_le.mp hx).le
    have hup : 0 < goldenSection * (s.hi - s.x) := mul_pos hg (by linarith)
    have hpart : goldenSection * (s.hi - s.x) < s.hi - s.x := by nlinarith
    constructor
    · linarith
    · linarith
    · intro _
      linarith
    · intro h
      exact absurd h (not_lt.mpr hup.le)

/-- A shortest step into the longer side fits. -/
theorem fits_shortest : s.Fits tol (copySign (s.least tol) (s.middle - s.x)) := by
  have hpos := least_pos ht s
  have hd : copySign (s.least tol) (s.middle - s.x) =
      if s.middle - s.x < 0 then -|s.least tol| else |s.least tol| := rfl
  rw [hd, abs_of_pos hpos]
  split
  · rename_i hx
    have hlong := (longer_side hc).1 (sub_neg.mp hx).le
    constructor
    · linarith
    · linarith
    · intro h
      linarith
    · intro _
      linarith
  · rename_i hx
    have hlong := (longer_side hc).2 (sub_nonneg.mp (not_lt.mp hx))
    constructor
    · linarith
    · linarith
    · intro _
      linarith
    · intro h
      linarith

/-- Whatever is proposed fits. -/
theorem fits_of_propose (hr : 1 < sqrt (5.0 : K)) (hr' : sqrt (5.0 : K) < 3)
    (h : s.propose tol = .ok t) : s.Fits tol t.d := by
  rcases step_of_propose h with rfl | ⟨d, hd⟩
  · exact fits_golden ht hlo hhi hc hr hr'
  · rw [hd]
    split
    · exact fits_shortest ht hlo hhi hc
    · rename_i hnear
      rw [decimal_two, not_or, not_lt, not_lt] at hnear
      exact fits_of_far ht (by linarith) (by linarith)

end

/-- The best point lies in the interval and is no higher than its ends and the other two points. All
values are those of `φ`. -/
structure State.Sound (φ : K → K) (s : State K) : Prop where
  lo_le : s.lo ≤ s.x
  le_hi : s.x ≤ s.hi
  best : s.fx = φ s.x
  second : s.fw = φ s.w
  third : s.fv = φ s.v
  le_low : s.fx ≤ φ s.lo
  le_high : s.fx ≤ φ s.hi
  le_second : s.fx ≤ s.fw
  le_third : s.fx ≤ s.fv

omit [IsStrictOrderedRing K] in
theorem sound_initial (hab : min a c ≤ b) (hbc : b ≤ max a c) (ha : φ b ≤ φ a)
    (hc : φ b ≤ φ c) : (State.initial a b c (φ b)).Sound φ where
  lo_le := by rwa [State.initial, smaller_eq]
  le_hi := by rwa [State.initial, larger_eq]
  best := rfl
  second := rfl
  third := rfl
  le_low := by
    simp only [State.initial, smaller_eq]
    rcases min_choice a c with h | h <;> rwa [h]
  le_high := by
    simp only [State.initial, larger_eq]
    rcases max_choice a c with h | h <;> rwa [h]
  le_second := le_rfl
  le_third := le_rfl

omit [IsStrictOrderedRing K] in
/-- A cut at a trial inside leaves an interval with the best point, inside the one before. -/
theorem interval_update (h : s.Sound φ) (hlo : s.lo < u) (hhi : u < s.hi) :
    ((s.update u (φ u)).lo ≤ (s.update u (φ u)).x ∧ (s.update u (φ u)).x ≤ (s.update u (φ u)).hi) ∧
      ((s.update u (φ u)).fx ≤ φ (s.update u (φ u)).lo ∧
        (s.update u (φ u)).fx ≤ φ (s.update u (φ u)).hi) ∧
      s.lo ≤ (s.update u (φ u)).lo ∧ (s.update u (φ u)).hi ≤ s.hi := by
  by_cases hle : φ u ≤ s.fx
  · have hold : φ u ≤ φ s.x := hle.trans_eq h.best
    obtain ⟨hx, hfx, ⟨hu, hl, hh⟩ | ⟨hu, hl, hh⟩⟩ := update_of_le (u := u) hle
    · rw [hx, hfx, hl, hh]
      exact ⟨⟨hu, hhi.le⟩, ⟨hold, hle.trans h.le_high⟩, h.lo_le, le_rfl⟩
    · rw [hx, hfx, hl, hh]
      exact ⟨⟨hlo.le, (not_le.mp hu).le⟩, ⟨hle.trans h.le_low, hold⟩, le_rfl, h.le_hi⟩
  · have hnew : s.fx ≤ φ u := (not_le.mp hle).le
    obtain ⟨hx, hfx, ⟨hu, hl, hh⟩ | ⟨hu, hl, hh⟩⟩ := update_of_not_le (u := u) hle
    · rw [hx, hfx, hl, hh]
      exact ⟨⟨hu.le, h.le_hi⟩, ⟨hnew, h.le_high⟩, hlo.le, le_rfl⟩
    · rw [hx, hfx, hl, hh]
      exact ⟨⟨h.lo_le, not_lt.mp hu⟩, ⟨h.le_low, hnew⟩, le_rfl, hhi.le⟩

omit [IsStrictOrderedRing K] in
/-- The best value after a cut is no higher than the one before and the one of the trial. -/
theorem value_update (s : State K) (u fu : K) :
    (s.update u fu).fx ≤ s.fx ∧ (s.update u fu).fx ≤ fu := by
  rcases best_update (s := s) u fu with ⟨-, hfx, hle⟩ | ⟨-, hfx, hgt⟩
  · rw [hfx]
    exact ⟨hle, le_rfl⟩
  · rw [hfx]
    exact ⟨le_rfl, (not_le.mp hgt).le⟩

omit [IsStrictOrderedRing K] in
theorem sound_update (h : s.Sound φ) (hlo : s.lo < u) (hhi : u < s.hi) :
    (s.update u (φ u)).Sound φ := by
  obtain ⟨hfx, hfu⟩ := value_update s u (φ u)
  obtain ⟨⟨hw, hlew⟩, hv, hlev⟩ := others_update (s := s)
    (P := fun y fy => fy = φ y ∧ (s.update u (φ u)).fx ≤ fy) ⟨h.best, hfx⟩
    ⟨h.second, hfx.trans h.le_second⟩ ⟨h.third, hfx.trans h.le_third⟩ ⟨rfl, hfu⟩
  obtain ⟨⟨hlx, hxh⟩, ⟨hlow, hhigh⟩, -, -⟩ := interval_update h hlo hhi
  have hbest : (s.update u (φ u)).fx = φ (s.update u (φ u)).x := by
    rcases best_update (s := s) u (φ u) with ⟨hx, hf, -⟩ | ⟨hx, hf, -⟩
    · rw [hx, hf]
    · rw [hx, hf, h.best]
  exact ⟨hlx, hxh, hbest, hw, hv, hlow, hhigh, hlew, hlev⟩

omit [IsStrictOrderedRing K] in
/-- The last two displacements do not matter. -/
theorem State.Sound.displaced (h : s.Sound φ) (d e : K) : State.Sound φ { s with d, e } :=
  ⟨h.lo_le, h.le_hi, h.best, h.second, h.third, h.le_low, h.le_high, h.le_second, h.le_third⟩

/-- A sound interval inside the bracket `a`, `b`, `c`; the best point is the best of `b` and of all
trials so far. -/
structure State.Confined (φ : K → K) (a b c : K) (es : List (Probe K)) (s : State K) : Prop
    extends s.Sound φ where
  left : min a c ≤ s.lo
  right : s.hi ≤ max a c
  tried : s.x = b ∨ .value s.x ∈ es
  least : ∀ t, t = b ∨ .value t ∈ es → s.fx ≤ φ t

omit [IsStrictOrderedRing K] in
theorem confined_initial (hab : min a c ≤ b) (hbc : b ≤ max a c) (ha : φ b ≤ φ a) (hc : φ b ≤ φ c) :
    (State.initial a b c (φ b)).Confined φ a b c [] where
  toSound := sound_initial hab hbc ha hc
  left := by rw [State.initial, smaller_eq]
  right := by rw [State.initial, larger_eq]
  tried := .inl rfl
  least := by
    rintro t (rfl | ht)
    · exact le_rfl
    · cases ht

omit [IsStrictOrderedRing K] in
theorem confined_update (h : s.Confined φ a b c es) (hlo : s.lo < u) (hhi : u < s.hi) (d e : K) :
    (State.update { s with d, e } u (φ u)).Confined φ a b c (es ++ [.value u]) := by
  have hs := h.displaced d e
  obtain ⟨-, -, hlow, hhigh⟩ := interval_update hs hlo hhi
  obtain ⟨hfx, hfu⟩ := value_update { s with d, e } u (φ u)
  refine ⟨sound_update hs hlo hhi, h.left.trans hlow, hhigh.trans h.right, ?_, ?_⟩
  · rcases best_update (s := { s with d, e }) u (φ u) with ⟨hx, -, -⟩ | ⟨hx, -, -⟩
    · simp [hx]
    · rw [hx]
      exact h.tried.imp_right (List.mem_append_left _)
  · intro t ht
    by_cases htu : t = u
    · rw [htu]
      exact hfu
    · exact hfx.trans (h.least t (by simpa [htu] using ht))

omit [IsStrictOrderedRing K] in
theorem State.Confined.isLeast (h : s.Confined φ a b c es) :
    IsLeast (φ '' {t | t = b ∨ .value t ∈ es}) s.fx := by
  constructor
  · rw [h.best]
    exact Set.mem_image_of_mem φ h.tried
  · rintro _ ⟨t, ht, rfl⟩
    exact h.least t ht

section
variable (hφ : ∀ t, l.value t = .ok (φ t))
include hφ

theorem exists_search (a b c fb : K) (o : Options K) :
    ∃ r es, search l a b c fb o = ⟨.ok r, es⟩ :=
  Traced.exists_ok (failsOnly_run (fun t => Traced.failsOnly_of_ok (hφ t)) _ _ _)

variable (hr : 1 < sqrt (5.0 : K)) (hr' : sqrt (5.0 : K) < 3) (ht : 0 ≤ tol)
include hr hr' ht

/-- Where an end is still too far away a trial is made, inside the interval and a shortest step or
more away from the best point, and the interval is cut there. -/
theorem exists_cut (hs : s.Sound φ) (hc : ¬ s.Converged tol) :
    ∃ d e u, step l tol s = ⟨.ok (State.update { s with d, e } u (φ u)), [.value u]⟩ ∧
      s.lo < u ∧ u < s.hi ∧ s.least tol ≤ |u - s.x| := by
  obtain ⟨t, hp⟩ := propose_eq_ok tol s
  have hfits := fits_of_propose ht hs.lo_le hs.le_hi hc hr hr' hp
  obtain ⟨d, e, rfl⟩ := eq_of_propose hp
  refine ⟨d, e, State.trial tol { s with d, e }, ?_, trial_of_fits ht hfits e⟩
  rw [step, hp, Traced.bind_ok rfl]
  dsimp only
  rw [Traced.bind_ok (hφ _)]
  rfl

theorem cut_of_cuts (hs : s.Sound φ) (h : Cuts l tol s s' es) :
    ∃ d e u, s' = State.update { s with d, e } u (φ u) ∧ es = [.value u] ∧
      s.lo < u ∧ u < s.hi ∧ s.least tol ≤ |u - s.x| := by
  obtain ⟨d, e, u, hstep, hu⟩ := exists_cut hφ hr hr' ht hs h.1
  rw [h.2, Traced.mk.injEq] at hstep
  exact ⟨d, e, u, Except.ok.inj hstep.1, hstep.2, hu⟩

theorem confined_trail {k : ℕ} (hab : min a c ≤ b) (hbc : b ≤ max a c) (ha : φ b ≤ φ a)
    (hc : φ b ≤ φ c) (h : Trail (Cuts l tol) (.initial a b c (φ b)) k s es) :
    s.Confined φ a b c es := by
  refine h.keeps (I := fun s es => s.Confined φ a b c es) ?_ (confined_initial hab hbc ha hc)
  intro s s' es es' hs hcut
  obtain ⟨d, e, u, rfl, rfl, hlo, hhi, -⟩ := cut_of_cuts hφ hr hr' ht hs.toSound hcut
  exact confined_update hs hlo hhi d e

end

/-- At every iteration of a search in a bracket the interval is sound; unless its ends are close, a
trial is made strictly inside, a shortest step or more away from the best point, and the next
interval is part of it. The search returns a point of the bracket with its value, the least of those
in the middle and of all trials; if it stops before its budget is used, both ends are close. -/
theorem search_confines (hφ : ∀ t, l.value t = .ok (φ t)) (hr : 1 < sqrt (5.0 : K))
    (hr' : sqrt (5.0 : K) < 3) (hab : min a c ≤ b) (hbc : b ≤ max a c) (ha : φ b ≤ φ a)
    (hc : φ b ≤ φ c) (o : Options K) (ht : 0 ≤ o.tol) :
    (∀ k s es, Trail (Cuts l o.tol) (.initial a b c (φ b)) k s es →
      s.Sound φ ∧ (¬ s.Converged o.tol → ∃ s' u, step l o.tol s = ⟨.ok s', [.value u]⟩ ∧
        s.lo < u ∧ u < s.hi ∧ o.tol * |s.x| + 1e-10 ≤ |u - s.x| ∧
        Set.Icc s'.lo s'.hi ⊆ Set.Icc s.lo s.hi)) ∧
    ∃ r es, search l a b c (φ b) o = ⟨.ok r, es⟩ ∧
      r.step ∈ Set.Icc (min a c) (max a c) ∧ r.value = φ r.step ∧
      IsLeast (φ '' {t | t = b ∨ .value t ∈ es}) r.value ∧
      ∃ k s es', Trail (Cuts l o.tol) (.initial a b c (φ b)) k s es' ∧ r = ⟨⟨s.x, s.fx⟩, k, 0⟩ ∧
        (k < o.maxIter.toNat ∧ s.Converged o.tol ∧ es = es' ∧
            s.hi - r.step ≤ 2 * (o.tol * |r.step| + 1e-10) ∧
            r.step - s.lo ≤ 2 * (o.tol * |r.step| + 1e-10) ∨
          k = o.maxIter.toNat ∧ es = es' ++ [.notice (.toleranceMissed o.maxIter)]) := by
  have htrail : ∀ {k s es}, Trail (Cuts l o.tol) (.initial a b c (φ b)) k s es →
      s.Confined φ a b c es := confined_trail hφ hr hr' ht hab hbc ha hc
  constructor
  · intro k s es h
    have hs := (htrail h).toSound
    refine ⟨hs, fun hn => ?_⟩
    obtain ⟨d, e, u, hstep, hlo, hhi, hfar⟩ := exists_cut hφ hr hr' ht hs hn
    obtain ⟨-, -, hlow, hhigh⟩ := interval_update (hs.displaced d e) hlo hhi
    exact ⟨_, u, hstep, hlo, hhi, hfar, Set.Icc_subset_Icc hlow hhigh⟩
  · obtain ⟨r, es, hsearch⟩ := exists_search hφ a b c (φ b) o
    refine ⟨r, es, hsearch, ?_⟩
    have hend : Ends l o (.initial a b c (φ b)) o.maxIter.toNat 0 r es := ends_of_run hsearch
    cases hend with
    | @converged k s es hk h hconv =>
      have hs := htrail h
      obtain ⟨hhi, hlo⟩ := close_of_converged hconv
      exact ⟨⟨hs.left.trans hs.lo_le, hs.le_hi.trans hs.right⟩, hs.best, hs.isLeast, k, s, es, h,
        by rw [Nat.zero_add], .inl ⟨hk, hconv, rfl, hhi, hlo⟩⟩
    | @missed s es h =>
      have hs := htrail h
      refine ⟨⟨hs.left.trans hs.lo_le, hs.le_hi.trans hs.right⟩, hs.best, ?_, _, s, es, h,
        by rw [Nat.zero_add], .inr ⟨rfl, rfl⟩⟩
      -- the notice at the end is no trial
      simpa using hs.isLeast

/-- In a bracket that is given from right to left, the search along a square stops with both ends
close. -/
theorem search_confines_square :
    let φ : ℚ → ℚ := fun t => (t - 1) ^ 2
    let l : Line ℚ := ⟨fun t => .ok (φ t), fun t => .ok (2 * (t - 1))⟩
    let o : Options ℚ := ⟨1 / 100, 20⟩
    (1 < sqrt (5.0 : ℚ) ∧ sqrt (5.0 : ℚ) < 3 ∧ φ (1 / 2) ≤ φ 3 ∧ φ (1 / 2) ≤ φ 0) ∧
    (State.initial 3 (1 / 2) 0 (φ (1 / 2))).Sound φ ∧
    ∃ r es, search l 3 (1 / 2) 0 (φ (1 / 2)) o = ⟨.ok r, es⟩ ∧ r.step ∈ Set.Icc 0 3 ∧
      IsLeast (φ '' {t | t = 1 / 2 ∨ .value t ∈ es}) r.value ∧
      ∃ s : State ℚ, s.Converged o.tol ∧ s.hi - r.step ≤ 2 * (1 / 100 * |r.step| + 1e-10) ∧
        r.step - s.lo ≤ 2 * (1 / 100 * |r.step| + 1e-10) := by
  intro φ l o
  have hr : 1 < sqrt (5.0 : ℚ) := by decide +kernel
  have hr' : sqrt (5.0 : ℚ) < 3 := by decide +kernel
  have hleft : φ (1 / 2) ≤ φ 3 := by decide +kernel
  have hright : φ (1 / 2) ≤ φ 0 := by decide +kernel
  obtain ⟨htrail, r, es, hsearch, hmem, -, hleast, k, s, es', -, rfl, hend⟩ :=
    search_confines (l := l) (φ := φ) (a := 3) (b := 1 / 2) (c := 0) (fun _ => rfl) hr hr'
      (by decide +kernel) (by decide +kernel) hleft hright o (by decide +kernel)
  obtain ⟨hsound, -⟩ := htrail 0 _ [] .refl
  have hcount : (search l 3 (1 / 2) 0 (φ (1 / 2)) o).outcome.toOption.map (·.nfev) = some 5 := by
    decide +kernel
  rw [hsearch] at hcount
  obtain rfl : k = 5 := Option.some.inj hcount
  refine ⟨⟨hr, hr', hleft, hright⟩, hsound, _, es, hsearch, hmem, hleast, s, ?_⟩
  rcases hend with ⟨-, hconv, -, hhi, hlo⟩ | ⟨hk, -⟩
  · exact ⟨hconv, hhi, hlo⟩
  · cases hk

end Descent.Brent
