import Mathlib
import Descent.Proofs.Quadratic
import Descent.Proofs.Search.Division

/-! In exact arithmetic, what the search for a bracket finds, and what it has seen where it finds
none. -/
namespace Descent.Bracket
open List
variable {K : Type} [Field K] [LinearOrder K] [IsStrictOrderedRing K] {φ : K → K}
  {d x y z u k growLimit : K}

/-- A part of the last step more is another step. -/
theorem onward_scaled (hk : 0 < k) (hx : 0 < d * (y - x)) : 0 < d * (y + k * (y - x) - y) := by
  have h : d * (y + k * (y - x) - y) = k * (d * (y - x)) := by ring
  rw [h]
  exact mul_pos hk hx

/-- A point between the ends of a step divides it into two. -/
theorem onward_of_between (hx : 0 < d * (y - x)) (hu : 0 < (x - u) * (u - y)) :
    0 < d * (u - x) ∧ 0 < d * (y - u) := by
  have hd : d ≠ 0 := by
    rintro rfl
    rw [zero_mul] at hx
    exact lt_irrefl 0 hx
  have hprod : 0 < d * (u - x) * (d * (y - u)) := by
    have h : d * (u - x) * (d * (y - u)) = d ^ 2 * ((x - u) * (u - y)) := by ring
    rw [h]
    positivity
  have hsum : d * (u - x) + d * (y - u) = d * (y - x) := by ring
  rcases mul_pos_iff.mp hprod with h | ⟨h, h'⟩
  · exact h
  · linarith

/-- Points that follow each other in direction `d` are in order. -/
theorem sorted_of_onward {pts : List K} (hd : d ≠ 0) (h : pts.IsChain fun x y => 0 < d * (y - x)) :
    pts.Pairwise (· < ·) ∨ pts.Pairwise (· > ·) := by
  rcases lt_or_gt_of_ne hd with hneg | hpos
  · refine .inr (h.imp fun x y hxy => ?_).pairwise
    exact sub_neg.mp (neg_of_mul_pos_right hxy hneg.le)
  · refine .inl (h.imp fun x y hxy => ?_).pairwise
    exact sub_pos.mp (pos_of_mul_pos_right hxy hpos.le)

/-- From one point to another in direction `d` the values fall. -/
def Falls (d : K) (φ : K → K) (x y : K) : Prop := 0 < d * (y - x) ∧ φ y < φ x

/-- Three points one after the other in direction `d`; the second is no higher than the first. -/
structure Leads (d : K) (s : Bracket K) : Prop where
  first : 0 < d * (s.b - s.a)
  second : 0 < d * (s.c - s.b)
  falls : s.fb ≤ s.fa

variable {s s' : Bracket K}

/-- The second point is strictly between the others. -/
theorem Leads.between (h : s.Leads d) : s.a < s.b ∧ s.b < s.c ∨ s.c < s.b ∧ s.b < s.a := by
  rcases pos_and_pos_or_neg_and_neg_of_mul_pos h.first with ⟨hd, ha⟩ | ⟨hd, ha⟩
  · exact .inl ⟨sub_pos.mp ha, sub_pos.mp ((pos_iff_pos_of_mul_pos h.second).mp hd)⟩
  · exact .inr ⟨sub_neg.mp ((neg_iff_neg_of_mul_pos h.second).mp hd), sub_neg.mp ha⟩

/-- The farthest point lies beyond the third. -/
theorem Leads.limit (h : s.Leads d) (hg : 1 < growLimit) :
    0 < d * (s.b + growLimit * (s.c - s.b) - s.c) := by
  have heq : d * (s.b + growLimit * (s.c - s.b) - s.c) = (growLimit - 1) * (d * (s.c - s.b)) := by
    ring
  rw [heq]
  exact mul_pos (sub_pos.mpr hg) h.second

omit [IsStrictOrderedRing K] in
/-- Three points that move on are in the same direction again. -/
theorem Leads.shift {fu : K} (h : s.Leads d) (hc : ¬ s.fb ≤ s.fc) (hu : 0 < d * (u - s.c)) :
    (s.shift u fu).Leads d :=
  ⟨h.second, hu, (not_le.mp hc).le⟩

variable [SquareRoot K] {l : Line K} {o : Options K} {a b : K} {count : ℕ} {es : List (Probe K)}

/-- The golden ratio is positive if the root is not negative. -/
theorem golden_pos (hr : 0 ≤ sqrt (5.0 : K)) : 0 < (golden : K) := by
  unfold golden
  rw [decimal_half, decimal_one]
  positivity

theorem leads_found (hs : s.Leads d) (hc : ¬ s.fb ≤ s.fc)
    (h : Moves l growLimit s (.found s') count es) : s'.Leads d ∧ s'.fb ≤ s'.fc := by
  cases h with
  | insideLower hu hi hv hl =>
    rw [gt_iff_lt, decimal_zero] at hi
    obtain ⟨hbu, huc⟩ := onward_of_between hs.second hi
    exact ⟨⟨hbu, huc, (hl.trans (not_le.mp hc)).le⟩, hl.le⟩
  | insideHigher hu hi hv hl hh =>
    rw [gt_iff_lt, decimal_zero] at hi
    obtain ⟨hbu, -⟩ := onward_of_between hs.second hi
    exact ⟨⟨hs.first, hbu, hs.falls⟩, le_of_lt hh⟩

section
variable (hgold : 0 < (golden : K)) (hgrow : 1 < growLimit)
include hgold hgrow

/-- Whichever way the next point is chosen, it lies beyond the last one. -/
theorem leads_next (hs : s.Leads d) (hc : ¬ s.fb ≤ s.fc)
    (h : Moves l growLimit s (.next s') count es) : s'.Leads d := by
  have hgolden := onward_scaled hgold hs.second
  cases h with
  | insideUseless hu hi hv hl hh hw => exact hs.shift hc hgolden
  | outsideLower hu hi ho hv hl hw =>
    rw [gt_iff_lt, decimal_zero] at ho
    obtain ⟨hcu, -⟩ := onward_of_between (hs.limit hgrow) ho
    exact (hs.shift hc hcu).shift (not_le.mpr hl) (onward_scaled hgold hcu)
  | outsideHigher hu hi ho hv hl =>
    rw [gt_iff_lt, decimal_zero] at ho
    exact hs.shift hc (onward_of_between (hs.limit hgrow) ho).1
  | farthest hu hi ho hf hv => exact hs.shift hc (hs.limit hgrow)
  | back hu hi ho hf hw => exact hs.shift hc hgolden

end

variable (hφ : ∀ t, l.value t = .ok (φ t))
include hφ

theorem exists_expand (growLimit : K) (s : Bracket K) :
    ∃ w k es, expand l growLimit s = ⟨.ok (w, k), es⟩ := by
  obtain ⟨⟨w, k⟩, es, h⟩ := Traced.exists_ok
    (failsOnly_expand (fun t => Traced.failsOnly_of_ok (hφ t)) growLimit s)
  exact ⟨w, k, es, h⟩

/-- The points left behind by an expansion, up to the middle of the next three, fall; all of them
and the last of the next three have been tried. -/
theorem falls_next (hgrow : 1 < growLimit) (hv : s.LiesOn l) (hs : s.Leads d) (hc : ¬ s.fb ≤ s.fc)
    (h : Moves l growLimit s (.next s') count es) :
    ∃ pts, (s.b :: (pts ++ [s'.b])).IsChain (Falls d φ) ∧
      ((pts ++ [s'.b, s'.c]).map .value).Sublist (.value s.c :: es) := by
  have hvb := Except.ok.inj ((hφ s.b).symm.trans hv.b)
  have hvc := Except.ok.inj ((hφ s.c).symm.trans hv.c)
  have hbc : Falls d φ s.b s.c := by
    refine ⟨hs.second, ?_⟩
    rw [hvb, hvc]
    exact not_le.mp hc
  have hshift : ∀ u fu, .value u ∈ es → s' = s.shift u fu →
      ∃ pts, (s.b :: (pts ++ [s'.b])).IsChain (Falls d φ) ∧
        ((pts ++ [s'.b, s'.c]).map .value).Sublist (.value s.c :: es) := by
    rintro u fu hu rfl
    exact ⟨[], .cons_cons hbc (.singleton s.c), .cons_cons _ (List.singleton_sublist.mpr hu)⟩
  cases h with
  | insideUseless hu hi hv hl hh hw => exact hshift _ _ (by simp) rfl
  | @outsideLower u fu fw hu hi ho hv hl hw =>
    rw [gt_iff_lt, decimal_zero] at ho
    obtain ⟨hcu, -⟩ := onward_of_between (hs.limit hgrow) ho
    have hvu := Except.ok.inj ((hφ u).symm.trans hv)
    have hcu : Falls d φ s.c u := by
      refine ⟨hcu, ?_⟩
      rw [hvc, hvu]
      exact hl
    exact ⟨[s.c], .cons_cons hbc (.cons_cons hcu (.singleton u)), .refl _⟩
  | outsideHigher hu hi ho hv hl => exact hshift _ _ (by simp) rfl
  | farthest hu hi ho hf hv => exact hshift _ _ (by simp) rfl
  | back hu hi ho hf hw => exact hshift _ _ (by simp) rfl

/-- A run that fails has spent its budget, and with each expansion it has gone farther down. -/
theorem falls_run (hgold : 0 < (golden : K)) (hgrow : 1 < o.growLimit) {budget nfev : ℕ}
    {e : Fault K} (hv : s.LiesOn l) (hs : s.Leads d)
    (h : (run l o budget s nfev).outcome = .error e) :
    e = .noBracket o.maxIter ∧ ∃ pts, budget ≤ pts.length ∧ (s.b :: pts).IsChain (Falls d φ) ∧
      (pts.map .value).Sublist (.value s.c :: (run l o budget s nfev).events) := by
  induction budget generalizing s nfev with
  | zero =>
    cases h
    exact ⟨rfl, [], le_rfl, .singleton s.b, List.nil_sublist _⟩
  | succ budget ih =>
    rw [run] at h ⊢
    split at h
    · cases h
    rename_i hc
    rw [if_neg hc]
    obtain ⟨w, k, es₁, hw⟩ := exists_expand hφ o.growLimit s
    rw [hw, Traced.bind_ok rfl] at h ⊢
    have hm := moves_of_expand hw
    cases w with
    | found s' => cases h
    | next s' =>
      obtain ⟨he, pts', hlen, hchain', hsub'⟩ :=
        ih (liesOn_next hv hm) (leads_next hgold hgrow hs hc hm) h
      obtain ⟨pts, hchain, hsub⟩ := falls_next hφ hgrow hv hs hc hm
      refine ⟨he, pts ++ s'.b :: pts', ?_, ?_, ?_⟩
      · simp only [List.length_append, List.length_cons]
        omega
      · rw [← List.cons_append] at hchain ⊢
        exact List.isChain_split.mpr ⟨hchain, hchain'⟩
      · -- the last of the three points is the first that the rest of the run counts
        calc ((pts ++ s'.b :: pts').map Probe.value)
          _ = (pts ++ [s'.b]).map .value ++ pts'.map .value := by simp
          _ <+ (pts ++ [s'.b]).map .value ++ .value s'.c :: (run l o budget s' (nfev + k)).events :=
            hsub'.append_left _
          _ = (pts ++ [s'.b, s'.c]).map .value ++ (run l o budget s' (nfev + k)).events := by simp
          _ <+ .value s.c :: (es₁ ++ (run l o budget s' (nfev + k)).events) :=
            hsub.append_right _

omit hφ in
theorem leads_initial {fa fb fc : K} (hgold : 0 < (golden : K)) (hab : a ≠ b) (hle : fb ≤ fa) :
    (⟨a, b, b + golden * (b - a), fa, fb, fc⟩ : Bracket K).Leads (b - a) := by
  have hfirst : 0 < (b - a) * (b - a) := mul_self_pos.mpr (sub_ne_zero.mpr hab.symm)
  exact ⟨hfirst, onward_scaled hgold hfirst, hle⟩

/-- The first three points lead away from the worse of the two given. -/
theorem exists_initial (hgold : 0 < (golden : K)) (hab : a ≠ b) :
    ∃ s, initial l a b = ⟨.ok s, [.value a, .value b, .value s.c]⟩ ∧ s.Leads (s.b - s.a) ∧
      (φ a < φ b ∧ s.a = b ∧ s.b = a ∨ φ b ≤ φ a ∧ s.a = a ∧ s.b = b) := by
  unfold initial
  rw [Traced.bind_ok (hφ a)]
  dsimp only
  rw [Traced.bind_ok (hφ b)]
  dsimp only
  by_cases hc : φ b > φ a
  · rw [if_pos hc]
    dsimp only
    rw [Traced.bind_ok (hφ _)]
    exact ⟨_, rfl, leads_initial hgold hab.symm hc.le, .inl ⟨hc, rfl, rfl⟩⟩
  · rw [if_neg hc]
    dsimp only
    rw [Traced.bind_ok (hφ _)]
    exact ⟨_, rfl, leads_initial hgold hab (not_lt.mp hc), .inr ⟨not_lt.mp hc, rfl, rfl⟩⟩

/-- A search from two points returns a bracket, no higher in the middle than either of them. If it
fails, it has gone from the better of them away from the other, down at every point, and has tried
more such points than it may expand. -/
theorem search_encloses (hr : 0 ≤ sqrt (5.0 : K)) (hab : a ≠ b) (hgrow : 1 < o.growLimit) :
    match (search l a b o).outcome with
    | .ok (s, _) =>
      s.fa = φ s.a ∧ s.fb = φ s.b ∧ s.fc = φ s.c ∧
        (s.a < s.b ∧ s.b < s.c ∨ s.c < s.b ∧ s.b < s.a) ∧ s.fb ≤ s.fa ∧ s.fb ≤ s.fc ∧
        s.fb ≤ min (φ a) (φ b)
    | .error e =>
      e = .noBracket o.maxIter ∧ ∃ worse best pts,
        (φ a < φ b ∧ worse = b ∧ best = a ∨ φ b ≤ φ a ∧ worse = a ∧ best = b) ∧
        o.maxIter + 1 ≤ (best :: pts).length ∧
        ((worse :: best :: pts).Pairwise (· < ·) ∨ (worse :: best :: pts).Pairwise (· > ·)) ∧
        ((best :: pts).map φ).Pairwise (· > ·) ∧
        ((best :: pts).map .value).Sublist (search l a b o).events := by
  have hgold := golden_pos hr
  obtain ⟨s₀, hi, hlead, hbest⟩ := exists_initial hφ hgold hab
  have hlies := (initial_eq_ok hi).1
  split
  · rename_i s count ho
    have h := Traced.eq_of_outcome ho
    obtain ⟨s₁, es₁, es₂, hi', hrun, -⟩ := initial_of_search h
    rw [hi] at hi'
    cases hi'
    obtain ⟨hs, hle⟩ : s.Leads (s₀.b - s₀.a) ∧ s.fb ≤ s.fc :=
      run_keeps (fun hs hle => ⟨hs, hle⟩) leads_found (leads_next hgold hgrow) hlead hrun
    obtain ⟨ha, hb, hc⟩ := liesOn_search h
    obtain ⟨fa, fb, hva, hvb, hlea, hleb⟩ := middle_of_search h
    rw [hφ] at ha hb hc hva hvb
    cases hva
    cases hvb
    exact ⟨(Except.ok.inj ha).symm, (Except.ok.inj hb).symm, (Except.ok.inj hc).symm, hs.between,
      hs.falls, hle, le_min hlea hleb⟩
  · rename_i e ho
    rw [search, hi, Traced.bind_ok rfl] at ho
    obtain ⟨rfl, pts, hlen, hchain, hsub⟩ := falls_run hφ hgold hgrow hlies hlead ho
    refine ⟨rfl, s₀.a, s₀.b, pts, hbest, ?_, ?_, ?_, ?_⟩
    · rw [List.length_cons]
      omega
    · have hd : s₀.b - s₀.a ≠ 0 := (mul_self_pos.mp hlead.first)
      exact sorted_of_onward hd (.cons_cons hlead.first (hchain.imp fun _ _ h => h.1))
    · exact ((List.isChain_map φ).mpr (hchain.imp fun _ _ h => h.2)).pairwise
    · rw [search, hi, Traced.bind_ok rfl]
      -- of the first three probes the middle point is one of two, and the last is the third
      have hmem : [s₀.b].map Probe.value <+ [.value a, .value b] := by
        apply List.singleton_sublist.mpr
        rcases hbest with ⟨-, -, hb⟩ | ⟨-, -, hb⟩ <;> simp [hb]
      exact hmem.append hsub

omit hφ in
/-- Along a square with its minimum behind both points the search finds a bracket, and fails if it
may expand only once. -/
theorem search_encloses_square :
    let φ : ℚ → ℚ := fun t => (t + 3) ^ 2
    let l : Line ℚ := ⟨fun t => .ok (φ t), fun t => .ok (2 * (t + 3))⟩
    let once : Options ℚ := ⟨100, 1⟩
    (∃ s count, (search l 0 1 .standard).outcome = .ok (s, count) ∧
      (s.a < s.b ∧ s.b < s.c ∨ s.c < s.b ∧ s.b < s.a) ∧ s.fb ≤ s.fa ∧ s.fb ≤ s.fc ∧ s.fb ≤ 9) ∧
    (search l 0 1 once).outcome = .error (.noBracket 1) ∧ ∃ pts, 1 ≤ pts.length ∧
      ((0 :: pts).map φ).Pairwise (· > ·) ∧
      ((0 :: pts).map .value).Sublist (search l 0 1 once).events := by
  intro φ l once
  have hr : 0 ≤ sqrt (5.0 : ℚ) := by decide +kernel
  have hφ : ∀ t, l.value t = .ok (φ t) := fun t => rfl
  have hab : (0 : ℚ) ≠ 1 := zero_ne_one
  constructor
  · have h := search_encloses (o := .standard) hφ hr hab (by decide +kernel)
    have hok : (search l 0 1 .standard).outcome.isOk = true := by decide +kernel
    cases ho : (search l 0 1 .standard).outcome with
    | error e =>
      rw [ho] at hok
      cases hok
    | ok p =>
      rw [ho] at h
      obtain ⟨-, -, -, hbetween, hfa, hfc, hle⟩ := h
      exact ⟨p.1, p.2, rfl, hbetween, hfa, hfc, hle.trans (by decide +kernel)⟩
  · have h := search_encloses (o := once) hφ hr hab (by decide +kernel)
    have hfail : (search l 0 1 once).outcome.isOk = false := by decide +kernel
    cases ho : (search l 0 1 once).outcome with
    | ok p =>
      rw [ho] at hfail
      cases hfail
    | error e =>
      rw [ho] at h
      obtain ⟨he, worse, best, pts, hbest, hlen, -, hfalls, htried⟩ := h
      have hlt : φ 0 < φ 1 := by decide +kernel
      rcases hbest with ⟨-, -, rfl⟩ | ⟨hle, -⟩
      · refine ⟨by rw [he], pts, ?_, hfalls, htried⟩
        rw [List.length_cons] at hlen
        change (1 : ℤ) + 1 ≤ _ at hlen
        omega
      · exact absurd hle (not_le.mpr hlt)

end Descent.Bracket
