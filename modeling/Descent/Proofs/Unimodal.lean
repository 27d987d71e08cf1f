import Mathlib
import Descent.LineSearch
import Descent.Proofs.Certificate
import Descent.Proofs.Confinement
import Descent.Proofs.Enclosure

/-! In exact arithmetic, along a line with a single minimum the search without derivatives keeps it
in its intervals from the bracket on, and ends near it. -/
namespace Descent
variable {K : Type} [LinearOrder K] {φ : K → K} {m x y : K}

/-- Falls up to `m` and rises from there on. -/
structure Unimodal (φ : K → K) (m : K) : Prop where
  falls : StrictAntiOn φ (Set.Iic m)
  rises : StrictMonoOn φ (Set.Ici m)

namespace Unimodal
variable (h : Unimodal φ m)
include h

/-- Beyond a point that is no lower than one after it. -/
theorem lt_of_le (hxy : x < y) (hle : φ y ≤ φ x) : x < m := by
  by_contra hm
  have hx : m ≤ x := not_lt.mp hm
  exact not_le.mpr (h.rises hx (hx.trans hxy.le) hxy) hle

/-- Before a point that is no lower than one before it. -/
theorem lt_of_ge (hxy : x < y) (hle : φ x ≤ φ y) : m < y := by
  by_contra hm
  have hy : y ≤ m := not_lt.mp hm
  exact not_le.mpr (h.falls (hxy.le.trans hy) hy hxy) hle

end Unimodal

variable [Field K] [IsStrictOrderedRing K] [SquareRoot K] {l : Line K} {es : List (Probe K)}

namespace Bracket
variable {s : Bracket K} {o : Options K} {a b : K} {count : ℕ}

theorem leads_of_search (hφ : ∀ t, l.value t = .ok (φ t)) (hgold : 0 < (golden : K)) (hab : a ≠ b)
    (hgrow : 1 < o.growLimit) (h : search l a b o = ⟨.ok (s, count), es⟩) :
    ∃ d, s.Leads d ∧ s.fb ≤ s.fc := by
  obtain ⟨s₀, hi, hlead, -⟩ := exists_initial hφ hgold hab
  obtain ⟨s₁, es₁, es₂, hi', hrun, -⟩ := initial_of_search h
  rw [hi] at hi'
  cases hi'
  exact ⟨s₀.b - s₀.a, run_keeps (P := fun s => s.Leads (s₀.b - s₀.a) ∧ s.fb ≤ s.fc)
    (fun hs hle => ⟨hs, hle⟩) leads_found (leads_next hgold hgrow) hlead hrun⟩

section
variable {d : K} (hφ : ∀ t, l.value t = .ok (φ t)) (hv : s.LiesOn l) (hs : s.Leads d)
  (hle : s.fb ≤ s.fc)
include hφ hv hs hle

omit [IsStrictOrderedRing K] in
theorem values_of_leads : φ s.b = s.fb ∧ φ s.b ≤ φ s.a ∧ φ s.b ≤ φ s.c := by
  have ha := Except.ok.inj ((hφ s.a).symm.trans hv.a)
  have hb := Except.ok.inj ((hφ s.b).symm.trans hv.b)
  have hc := Except.ok.inj ((hφ s.c).symm.trans hv.c)
  rw [ha, hb, hc]
  exact ⟨rfl, hs.falls, hle⟩

/-- A bracket holds the minimum. -/
theorem minimum_mem (h : Unimodal φ m) : m ∈ Set.Ioo (min s.a s.c) (max s.a s.c) := by
  obtain ⟨-, ha, hc⟩ := values_of_leads hφ hv hs hle
  rcases hs.between with ⟨hab, hbc⟩ | ⟨hcb, hba⟩
  · rw [min_eq_left (hab.trans hbc).le, max_eq_right (hab.trans hbc).le]
    exact ⟨h.lt_of_le hab ha, h.lt_of_ge hbc hc⟩
  · rw [min_eq_right (hcb.trans hba).le, max_eq_left (hcb.trans hba).le]
    exact ⟨h.lt_of_le hcb hc, h.lt_of_ge hba ha⟩

/-- A search may begin in a bracket. -/
theorem sound_of_leads : (Brent.State.initial s.a s.b s.c (φ s.b)).Sound φ := by
  obtain ⟨-, ha, hc⟩ := values_of_leads hφ hv hs hle
  rcases hs.between with ⟨hab, hbc⟩ | ⟨hcb, hba⟩
  · exact Brent.sound_initial (min_le_of_left_le hab.le) (le_max_of_le_right hbc.le) ha hc
  · exact Brent.sound_initial (min_le_of_right_le hcb.le) (le_max_of_le_left hba.le) ha hc

end

/-- What a search for a bracket returns holds the minimum, and another search may begin there. -/
theorem holds_of_search (hφ : ∀ t, l.value t = .ok (φ t)) (hgold : 0 < (golden : K)) (hab : a ≠ b)
    (hgrow : 1 < o.growLimit) (h : Unimodal φ m) (hs : search l a b o = ⟨.ok (s, count), es⟩) :
    φ s.b = s.fb ∧ m ∈ Set.Ioo (min s.a s.c) (max s.a s.c) ∧
      (Brent.State.initial s.a s.b s.c (φ s.b)).Sound φ := by
  have hv := liesOn_search hs
  obtain ⟨d, hlead, hle⟩ := leads_of_search hφ hgold hab hgrow hs
  exact ⟨(values_of_leads hφ hv hlead hle).1, minimum_mem hφ hv hlead hle h,
    sound_of_leads hφ hv hlead hle⟩

end Bracket

namespace Brent
variable {s : State K} {u tol : K}

omit [IsStrictOrderedRing K] in
/-- No cut at another point than the best one removes the minimum. -/
theorem minimum_update (h : Unimodal φ m) (hs : s.fx = φ s.x) (hm : m ∈ Set.Icc s.lo s.hi)
    (hu : u ≠ s.x) : m ∈ Set.Icc (s.update u (φ u)).lo (s.update u (φ u)).hi := by
  by_cases hle : φ u ≤ s.fx
  · obtain ⟨-, -, ⟨hux, hl, hh⟩ | ⟨hux, hl, hh⟩⟩ := update_of_le (u := u) hle
    · rw [hl, hh]
      exact ⟨(h.lt_of_le (lt_of_le_of_ne hux hu.symm) (hle.trans_eq hs)).le, hm.2⟩
    · rw [hl, hh]
      exact ⟨hm.1, (h.lt_of_ge (not_le.mp hux) (hle.trans_eq hs)).le⟩
  · have hge : φ s.x ≤ φ u := hs.symm.trans_le (not_le.mp hle).le
    obtain ⟨-, -, ⟨hux, hl, hh⟩ | ⟨hux, hl, hh⟩⟩ := update_of_not_le (u := u) hle
    · rw [hl, hh]
      exact ⟨(h.lt_of_le hux hge).le, hm.2⟩
    · rw [hl, hh]
      exact ⟨hm.1, (h.lt_of_ge (lt_of_le_of_ne (not_lt.mp hux) hu.symm) hge).le⟩

/-- From a bracket with the minimum on, all intervals hold it. -/
theorem minimum_trail {a b c : K} {k : ℕ} (h : Unimodal φ m) (hφ : ∀ t, l.value t = .ok (φ t))
    (hr : 1 < sqrt (5.0 : K)) (hr' : sqrt (5.0 : K) < 3) (ht : 0 ≤ tol)
    (hs : (State.initial a b c (φ b)).Sound φ) (hm : m ∈ Set.Ioo (min a c) (max a c))
    (htrail : Trail (Cuts l tol) (.initial a b c (φ b)) k s es) :
    s.Sound φ ∧ m ∈ Set.Icc s.lo s.hi := by
  refine htrail.keeps (I := fun s _ => s.Sound φ ∧ m ∈ Set.Icc s.lo s.hi) ?_ ⟨hs, ?_⟩
  · rintro s s' es es' ⟨hs, hm⟩ hcut
    obtain ⟨d, e, u, rfl, -, hlo, hhi, hfar⟩ := cut_of_cuts hφ hr hr' ht hs hcut
    have hu : u ≠ s.x := by
      rintro rfl
      rw [sub_self, abs_zero] at hfar
      exact not_le.mpr (least_pos ht s) hfar
    exact ⟨sound_update (hs.displaced d e) hlo hhi,
      minimum_update (s := { s with d, e }) h hs.best hm hu⟩
  · simp only [State.initial, smaller_eq, larger_eq]
    exact Set.Ioo_subset_Icc_self hm

/-- A search that does not report that it has missed its tolerance ends near the minimum. -/
theorem near_of_search {a b c : K} {o : Options K} {r : Step K} (h : Unimodal φ m)
    (hφ : ∀ t, l.value t = .ok (φ t)) (hr : 1 < sqrt (5.0 : K)) (hr' : sqrt (5.0 : K) < 3)
    (ht : 0 ≤ o.tol) (hs : (State.initial a b c (φ b)).Sound φ)
    (hm : m ∈ Set.Ioo (min a c) (max a c)) (hsearch : search l a b c (φ b) o = ⟨.ok r, es⟩)
    (hn : .notice (.toleranceMissed o.maxIter) ∉ es) :
    |r.step - m| ≤ 2 * (o.tol * |r.step| + 1e-10) := by
  have hend : Ends l o (.initial a b c (φ b)) o.maxIter.toNat 0 r es := ends_of_run hsearch
  cases hend with
  | @converged k s es hk htrail hconv =>
    obtain ⟨-, hlo, hhi⟩ := minimum_trail h hφ hr hr' ht hs hm htrail
    obtain ⟨hright, hleft⟩ := close_of_converged hconv
    rw [least_eq] at hright hleft
    rw [abs_le]
    constructor <;> linarith
  | missed htrail => simp at hn

theorem fault_of_bracketAndSearch {o : Options K} {e : Fault K}
    (hφ : ∀ t, l.value t = .ok (φ t)) (h : (bracketAndSearch l o).outcome = .error e) :
    e = .noBracket 200 :=
  (failsOnly_bracketAndSearch (P := fun e => e = .noBracket 200)
    (fun t => Traced.failsOnly_of_ok (a := φ t) (hφ t)) rfl).fault h

end Brent

/-- Along a line with a single minimum the search without derivatives finds no bracket, and then
leaves the point and the counts alone, or it returns a step with its value, no higher than at either
point it began with. The minimum is in the bracket and in all intervals after it; and it is near,
unless the search reports that it has missed its tolerance. -/
theorem LineSearch.minimize_unimodal {n : ℕ} (f : Objective K n) (g : Gradient K n)
    (x d : Vector K n) (hf : ∀ t, f (along x d t) = .ok (φ t)) (h : Unimodal φ m)
    (hr : 1 < sqrt (5.0 : K)) (hr' : sqrt (5.0 : K) < 3) (s : LineSearch K) (o : Brent.Options K)
    (hs : s.strategy = .brent o) (ht : 0 < o.tol) (hint : Option K) :
    let l := Line.through f g x d
    let call := s.minimize f g x d hint
    match call.found.outcome with
    | .error e =>
      e = .noBracket 200 ∧ call.point = x ∧ call.search.nfev = s.nfev ∧ call.search.njev = s.njev
    | .ok r =>
      call.point = along x d r.step ∧ f call.point = .ok r.value ∧ r.value ≤ min (φ 0) (φ 1) ∧
      (∃ b count found es es', Bracket.search l 0 1 .standard = ⟨.ok (b, count), es⟩ ∧
        Brent.search l b.a b.b b.c b.fb o = ⟨.ok found, es'⟩ ∧
        r = { found with nfev := count + found.nfev } ∧
        m ∈ Set.Ioo (min b.a b.c) (max b.a b.c) ∧
        ∀ k t es, Trail (Brent.Cuts l o.tol) (.initial b.a b.b b.c b.fb) k t es →
          m ∈ Set.Icc t.lo t.hi) ∧
      (.notice (.toleranceMissed o.maxIter) ∉ call.found.events →
        |r.step - m| ≤ 2 * (o.tol * |r.step| + 1e-10)) := by
  intro l call
  have hφ : ∀ t, l.value t = .ok (φ t) := hf
  have hsearch : s.strategy.search s.searches l hint = Brent.bracketAndSearch l o := by
    rw [hs]
    rfl
  have hfound : call.found = (Brent.bracketAndSearch l o).mapEvents (Probe.toEvent x d) := by
    rw [← hsearch]
    rfl
  have hcall : (Brent.bracketAndSearch l o).outcome = call.found.outcome := by
    rw [hfound]
    rfl
  split
  · rename_i e he
    rw [he] at hcall
    refine ⟨Brent.fault_of_bracketAndSearch hφ hcall, ?_⟩
    rw [← hsearch] at hcall
    exact LineSearch.minimize_of_error hcall
  · rename_i r ho
    rw [ho] at hcall
    have hpoint : call.point = along x d r.step := by
      rw [← hsearch] at hcall
      exact (LineSearch.minimize_of_ok hcall).1
    obtain ⟨b, count, found, es, es', hb, hf', rfl, hes⟩ :=
      Brent.bracket_of_search (Traced.eq_of_outcome hcall)
    rw [decimal_zero, decimal_one] at hb
    obtain ⟨y, z, hy, hz, hley, hlez⟩ := Bracket.middle_of_search hb
    obtain rfl := Except.ok.inj ((hφ 0).symm.trans hy)
    obtain rfl := Except.ok.inj ((hφ 1).symm.trans hz)
    obtain ⟨hfb, hm, hsound⟩ := Bracket.holds_of_search hφ
      (Bracket.golden_pos (zero_le_one.trans hr.le)) zero_ne_one
      (by norm_num [Bracket.Options.standard]) h hb
    have hlow := Brent.value_of_search hf'
    refine ⟨hpoint, ?_, le_min (hlow.trans hley) (hlow.trans hlez),
      ⟨b, count, found, es, es', hb, hf', rfl, hm, ?_⟩, fun hn => ?_⟩
    · rw [hpoint]
      exact Brent.liesOn_search (r := found) (Bracket.liesOn_search hb).b hf'
    · rw [← hfb]
      intro k t es htrail
      exact (Brent.minimum_trail h hφ hr hr' ht.le hsound hm htrail).2
    · rw [← hfb] at hf'
      refine Brent.near_of_search (r := found) h hφ hr hr' ht.le hsound hm hf' fun hmem => hn ?_
      rw [hfound]
      exact List.mem_map.mpr ⟨_, hes ▸ List.mem_append_right es hmem, rfl⟩

/-- With its minimum behind both points it begins with, the search along a square ends near it. -/
theorem LineSearch.minimize_unimodal_square :
    let φ : ℚ → ℚ := fun t => (t + 2) ^ 2
    let f : Objective ℚ 1 := fun x => .ok ((x.get 0 + 2) ^ 2)
    let g : Gradient ℚ 1 := fun _ => .error .functionMissing
    let call := (LineSearch.ofStrategy (.brent ⟨1 / 10, 10⟩)).minimize f g #v[0] #v[1] none
    Unimodal φ (-2) ∧ 1 < sqrt (5.0 : ℚ) ∧ sqrt (5.0 : ℚ) < 3 ∧
    ∃ r, call.found.outcome = .ok r ∧ f call.point = .ok r.value ∧ r.value ≤ 4 ∧
      |r.step + 2| ≤ 2 * (1 / 10 * |r.step| + 1e-10) := by
  intro φ f g call
  have hφ : Unimodal φ (-2) := by
    constructor
    · intro x hx y hy hxy
      have hy : y ≤ -2 := hy
      change (y + 2) ^ 2 < (x + 2) ^ 2
      nlinarith
    · intro x hx y hy hxy
      have hx : -2 ≤ x := hx
      change (x + 2) ^ 2 < (y + 2) ^ 2
      nlinarith
  have hf : ∀ t, f (along #v[0] #v[1] t) = .ok (φ t) := by
    intro t
    have hline := (Line.follows_single (fun y : ℚ => (y + 2) ^ 2) (fun _ => 0) 0 1).value t
    rw [zero_add, mul_one] at hline
    exact hline
  have hr : 1 < sqrt (5.0 : ℚ) := by decide +kernel
  have hr' : sqrt (5.0 : ℚ) < 3 := by decide +kernel
  have hcall := LineSearch.minimize_unimodal f g #v[0] #v[1] hf hφ hr hr'
    (.ofStrategy (.brent ⟨1 / 10, 10⟩)) ⟨1 / 10, 10⟩ rfl (by norm_num) none
  have hok : call.found.outcome.isOk = true := by decide +kernel
  have hquiet : call.found.events.all (fun e => e.notice?.isNone) = true := by decide +kernel
  refine ⟨hφ, hr, hr', ?_⟩
  cases ho : call.found.outcome with
  | error e =>
    rw [ho] at hok
    cases hok
  | ok r =>
    dsimp only at hcall
    rw [show (LineSearch.minimize _ f g #v[0] #v[1] none).found.outcome = .ok r from ho] at hcall
    obtain ⟨-, hvalue, hle, -, hnear⟩ := hcall
    refine ⟨r, rfl, hvalue, hle.trans (by decide +kernel), ?_⟩
    rw [← sub_neg_eq_add]
    apply hnear
    intro hmem
    have hnone := List.all_eq_true.mp hquiet _ hmem
    cases hnone

end Descent
