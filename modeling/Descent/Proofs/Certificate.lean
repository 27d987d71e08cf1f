import Mathlib
import Descent.Proofs.Quadratic
import Descent.Proofs.Search.Division
import Descent.Proofs.Search.Parabola
import Descent.Proofs.Search.Trail

/-! In exact arithmetic, what the Wolfe search has to show for the step that it returns. -/
namespace Descent
variable {K : Type} [Field K] [LinearOrder K] [IsStrictOrderedRing K] [SquareRoot K]
  {l : Line K} {c : Conditions K} {φ ψ : K → K} {es es' : List (Probe K)}

/-- The line has these values and slopes. -/
structure Line.Follows (l : Line K) (φ ψ : K → K) : Prop where
  value : ∀ t, l.value t = .ok (φ t)
  slope : ∀ t, l.slope t = .ok (ψ t)

/-- The line of functions of one variable. -/
theorem Line.follows_single (φ ψ : K → K) (a b : K) :
    (Line.through (fun x => .ok (φ (x.get 0))) (fun x => .ok (.ofVector #v[ψ (x.get 0)])) #v[a]
      #v[b]).Follows (fun t => φ (a + t * b)) (fun t => ψ (a + t * b) * b) := by
  have hget : ∀ t : K, (along #v[a] #v[b] t).get 0 = a + t * b := by
    intro t
    rw [get_along]
    simp [get_apply]
  constructor
  · intro t
    change Except.ok (φ ((along #v[a] #v[b] t).get 0)) = _
    rw [hget]
  · intro t
    change slopeAlong (.ofVector #v[ψ ((along #v[a] #v[b] t).get 0)]) #v[b] = _
    rw [hget, slopeAlong, Tensor.toVector?_ofVector]
    simp [dot_eq, get_apply, dotProduct]

namespace Conditions

/-- A step that was tried and has sufficient decrease, and of those that were tried and have it, one
with the least value. -/
structure Best (c : Conditions K) (φ : K → K) (es : List (Probe K)) (s : Sample K) : Prop where
  sufficient : c.Sufficient s
  value : s.value = φ s.step
  tried : .value s.step ∈ es
  least : ∀ t, .value t ∈ es → ¬ c.TooHigh ⟨t, φ t⟩ → s.value ≤ φ t

variable {s s' : Sample K}

omit [IsStrictOrderedRing K] in
/-- A trial that is too high or no better changes nothing. -/
theorem Best.append (h : c.Best φ es s)
    (hes : ∀ t, .value t ∈ es' → c.TooHigh ⟨t, φ t⟩ ∨ s.value ≤ φ t) : c.Best φ (es ++ es') s := by
  refine ⟨h.sufficient, h.value, List.mem_append_left _ h.tried, ?_⟩
  intro t ht hn
  rcases List.mem_append.mp ht with ht | ht
  · exact h.least t ht hn
  · exact (hes t ht).resolve_left hn

omit [IsStrictOrderedRing K] in
/-- A notice is no trial. -/
theorem Best.notice (h : c.Best φ es s) (m : Notice K) : c.Best φ (es ++ [.notice m]) s := by
  apply h.append
  intro t ht
  cases List.mem_singleton.mp ht

omit [IsStrictOrderedRing K] in
/-- A trial with sufficient decrease that is no worse takes the place of the best. -/
theorem Best.move (h : c.Best φ es s) (hs : c.Sufficient s') (hv : s'.value = φ s'.step)
    (hle : s'.value ≤ s.value) (hes : ∀ t, .value t ∈ es' ↔ t = s'.step) :
    c.Best φ (es ++ es') s' := by
  refine ⟨hs, hv, List.mem_append_right _ ((hes _).mpr rfl), ?_⟩
  intro t ht hn
  rcases List.mem_append.mp ht with ht | ht
  · exact hle.trans (h.least t ht hn)
  · rw [(hes t).mp ht, hv]

end Conditions

namespace Zoom
variable {s s' z : State K} {k : ℕ}

theorem best_narrows (hl : l.Follows φ ψ) (ha : s.Ahead c) (hs : c.Best φ es s.lo.toSample)
    (h : Narrows l c s s' es') : c.Best φ (es ++ es') s'.lo.toSample := by
  have hahead := ahead_moves ha h
  cases h with
  | shortened ht hv hr =>
    rename_i t v
    rw [hl.value] at hv
    cases hv
    apply hs.append
    intro t' ht'
    obtain rfl : t' = t := by simpa using ht'
    exact hr
  | moved ht hv hr hd hf =>
    rename_i t v d
    rw [hl.value] at hv
    cases hv
    rw [not_or] at hr
    exact hs.move hahead.1 rfl (not_le.mp hr.2).le (by simp)

/-- As long as zooming goes on, the better end is the best step of all that were tried. -/
theorem best_trail (hl : l.Follows φ ψ) (ha : z.Ahead c) (hz : c.Best φ es z.lo.toSample)
    (h : Trail (Narrows l c) z k s es') : s.Ahead c ∧ c.Best φ (es ++ es') s.lo.toSample := by
  induction h with
  | refl =>
    rw [List.append_nil]
    exact ⟨ha, hz⟩
  | tail _ hn ih =>
    rw [← List.append_assoc]
    exact ⟨ahead_moves ih.1 hn, best_narrows hl ih.1 ih.2 hn⟩

end Zoom

namespace Wolfe

namespace Doubling
variable {s s' : State K} {trial : K} {k : ℕ}

/-- After `k` doublings of the first trial step, each of which has lowered the value. -/
structure State.Doubled (c : Conditions K) (φ ψ : K → K) (trial : K) (k : ℕ) (es : List (Probe K))
    (s : State K) : Prop where
  next : s.trial = 2 ^ k * trial
  first : s.first = true → s.last.value = c.value
  best : c.Best φ es s.last.toSample
  tried : ∀ i < k, .value (2 ^ i * trial) ∈ es
  start : k = 0 → s.last.step = 0
  descends : 0 < k → s.last.step = 2 ^ (k - 1) * trial ∧ ψ s.last.step < c.c2 * c.slope

theorem doubled_initial (hv : c.value = φ 0) (trial : K) :
    (State.initial c trial).Doubled c φ ψ trial 0 [.value 0, .slope 0] where
  next := by simp [State.initial]
  first _ := rfl
  best := by
    refine ⟨c.sufficient_start, ?_, by simp [State.initial], ?_⟩
    · simpa [State.initial] using hv
    · intro t ht _
      obtain rfl : t = 0 := by simpa using ht
      exact hv.le
  tried i hi := absurd hi (Nat.not_lt_zero i)
  start _ := decimal_zero
  descends h := absurd h (lt_irrefl 0)

/-- A slope that is neither small nor positive is steep. -/
theorem steep_of_descends {d : K} (hf : ¬ c.Flat d) (hp : ¬ d ≥ 0.0) : d < c.c2 * c.slope := by
  rw [decimal_zero, not_le] at hp
  have hf : -c.c2 * c.slope < |d| := not_le.mp hf
  rw [abs_of_neg hp] at hf
  linarith

variable (hl : l.Follows φ ψ) (h1 : 0 ≤ c.c1) (hd : c.slope ≤ 0) (ht : 0 ≤ trial)
include h1 hd ht

/-- A trial that is not too high is below the last one. -/
theorem value_le_of_not_high {v : K} (hs : s.Doubled c φ ψ trial k es)
    (hr : ¬ (c.TooHigh ⟨s.trial, v⟩ ∨ (s.first = false ∧ v ≥ s.last.value))) :
    c.Sufficient ⟨s.trial, v⟩ ∧ v ≤ s.last.value := by
  rw [not_or, not_and] at hr
  have hsuf : c.Sufficient ⟨s.trial, v⟩ := by
    refine ⟨?_, hr.1⟩
    rw [hs.next]
    positivity
  refine ⟨hsuf, ?_⟩
  cases hf : s.first with
  | true =>
    rw [hs.first hf]
    exact hsuf.value_le h1 hd
  | false => exact (not_le.mp (hr.2 hf)).le

include hl

theorem doubled_descends (hs : s.Doubled c φ ψ trial k es) (h : Descends l c s s' es') :
    s'.Doubled c φ ψ trial (k + 1) (es ++ es') := by
  cases h with
  | descending hv hr hd' hf hp =>
    rename_i v d
    rw [hl.value] at hv
    rw [hl.slope] at hd'
    cases hv
    cases hd'
    obtain ⟨hsuf, hle⟩ := value_le_of_not_high h1 hd ht hs hr
    refine ⟨?_, by simp, hs.best.move hsuf rfl hle (by simp), ?_, by simp, fun _ => ?_⟩
    · rw [hs.next, decimal_two, pow_succ]
      ring
    · intro i hi
      rcases Nat.lt_succ_iff_lt_or_eq.mp hi with hi | rfl
      · exact List.mem_append_left _ (hs.tried i hi)
      · simp [hs.next]
    · exact ⟨hs.next, steep_of_descends hf hp⟩

theorem doubled_trail (hv : c.value = φ 0)
    (h : Trail (Descends l c) (.initial c trial) k s es) :
    s.Doubled c φ ψ trial k ([.value 0, .slope 0] ++ es) := by
  induction h with
  | refl => exact doubled_initial hv trial
  | tail _ hm ih =>
    rw [← List.append_assoc]
    exact doubled_descends hl h1 hd ht ih hm

/-- Where zooming begins, the better end is the best step so far. -/
theorem best_bracketed {z : Zoom.State K} (hs : s.Doubled c φ ψ trial k es)
    (h : Moves l c s (.bracketed z) es') : z.Ahead c ∧ c.Best φ (es ++ es') z.lo.toSample := by
  have hahead : s.Ahead c := by
    refine ⟨hs.best.sufficient, ?_⟩
    rw [hs.next]
    positivity
  refine ⟨ahead_bracketed hahead h, ?_⟩
  cases h with
  | high hv hr =>
    rw [hl.value] at hv
    cases hv
    apply hs.best.append
    intro t ht'
    obtain rfl : t = s.trial := by simpa using ht'
    exact hr.imp_right And.right
  | rising hv hr hd' hf hp =>
    rw [hl.value] at hv
    cases hv
    obtain ⟨hsuf, hle⟩ := value_le_of_not_high h1 hd ht hs hr
    exact hs.best.move hsuf rfl hle (by simp)

end Doubling

variable {o : Options K} {found : Found K} {r : Step K} {d : K}

omit [IsStrictOrderedRing K] in
/-- The secant step does not make the slope steeper. -/
theorem slope_of_refines {s : Step K} (hd : l.slope s.step = .ok d) (h : Refines l c s d r es) :
    ∃ d', l.slope r.step = .ok d' ∧ |d'| ≤ |d| := by
  cases h with
  | flat => exact ⟨d, hd, le_rfl⟩
  | useless => exact ⟨d, hd, le_rfl⟩
  | high => exact ⟨d, hd, le_rfl⟩
  | steeper => exact ⟨d, hd, le_rfl⟩
  | taken h ht hu hv hr hd' hs => exact ⟨_, hd', not_lt.mp hs⟩

omit [IsStrictOrderedRing K] in
/-- A search that accepts a step ends where the slope is small. -/
theorem flat_of_search (hf : find l o = ⟨.ok (c, found), es⟩) (he : found.ending = .accepted d)
    (h : search l o = ⟨.ok r, es'⟩) : ∃ d', l.slope r.step = .ok d' ∧ c.Flat d' := by
  obtain ⟨c', found', es₁, es₂, hf', -, hr⟩ := find_of_search h
  rw [hf] at hf'
  cases hf'
  rcases hr with ⟨d', he', hr⟩ | ⟨hn, -⟩
  · obtain ⟨hslope, hflat⟩ := (sound_find hf).2 d' he'
    obtain ⟨d'', hd'', hle⟩ := slope_of_refines hslope hr
    exact ⟨d'', hd'', hle.trans hflat⟩
  · exact absurd he (hn d)

/-- Whether a search accepts a step, to be evaluated. -/
def accepts (l : Line K) (o : Options K) : Bool :=
  match (find l o).outcome with
  | .ok (_, ⟨_, .accepted _⟩) => true
  | _ => false

omit [IsStrictOrderedRing K] in
theorem accepted_of_accepts (h : accepts l o = true) :
    ∃ c found d es, find l o = ⟨.ok (c, found), es⟩ ∧ found.ending = .accepted d := by
  unfold accepts at h
  split at h
  · exact ⟨_, _, _, _, Traced.eq_of_outcome ‹_›, rfl⟩
  · cases h

omit [IsStrictOrderedRing K] in
/-- A search that accepts no step ends as it is found. -/
theorem search_of_not_accepted (hf : find l o = ⟨.ok (c, found), es⟩)
    (he : ∀ d, found.ending ≠ .accepted d) : search l o = ⟨.ok found.toStep, es⟩ := by
  rw [search, hf, Traced.bind_ok rfl]
  dsimp only
  split
  · exact absurd ‹_› (he _)
  all_goals rw [Traced.pure_outcome, Traced.pure_events, List.append_nil]

/-- A search on a line that descends returns a step. -/
theorem exists_search (hl : l.Follows φ ψ) (ho : Ordered o.c1 o.c2) (hd : ψ 0 < 0) :
    ∃ r es, search l o = ⟨.ok r, es⟩ := by
  have hline : l.FailsOnly fun _ => False :=
    ⟨fun t => Traced.failsOnly_of_ok (hl.value t), fun t => Traced.failsOnly_of_ok (hl.slope t)⟩
  apply Traced.exists_ok
  apply failsOnly_search hline (dividesOnly_exact _) (fun hn => hn ho)
  intro d hslope hge
  rw [hl.slope, decimal_zero] at hslope
  cases hslope
  rw [decimal_zero] at hge
  exact not_le.mpr hd hge

/-- Zero and the steps that were tried, as far as they have sufficient decrease. -/
def Options.decreasing (o : Options K) (φ ψ : K → K) (es : List (Probe K)) : Set K :=
  {t | (t = 0 ∨ .value t ∈ es) ∧ φ t ≤ φ 0 + o.c1 * t * ψ 0}

omit [IsStrictOrderedRing K] in
theorem isLeast_of_best {s : Sample K} (hv : c.value = φ 0) (hs : c.slope = ψ 0) (h1 : c.c1 = o.c1)
    (h0 : .value 0 ∈ es) (h : c.Best φ es s) : IsLeast (φ '' o.decreasing φ ψ es) s.value := by
  have hlow : ∀ t, ¬ c.TooHigh ⟨t, φ t⟩ ↔ φ t ≤ φ 0 + o.c1 * t * ψ 0 := by
    intro t
    rw [← hv, ← hs, ← h1]
    exact not_lt
  constructor
  · rw [h.value]
    refine Set.mem_image_of_mem φ ⟨.inr h.tried, (hlow _).mp ?_⟩
    rw [← h.value]
    exact h.sufficient.2
  · rintro _ ⟨t, ⟨ht, hle⟩, rfl⟩
    refine h.least t ?_ ((hlow t).mpr hle)
    rcases ht with rfl | ht
    · exact h0
    · exact ht

/-- The search gives up the interval in which it zooms: all trials have been made, or the interval
is too small. The step is the better end of the interval that is left. -/
def GivesUp (l : Line K) (o : Options K) (c : Conditions K) (trial t : K) : Prop :=
  ∃ z k s es, Zooms l o c trial z ∧ Trail (Zoom.Narrows l c) z k s es ∧ t = s.lo.step ∧
    k ≤ o.maxZoom.toNat ∧ (k = o.maxZoom.toNat ∨ s.Collapsed)

/-- The doubled steps are all tried, and they all descend. -/
structure RunsOut (o : Options K) (ψ : K → K) (trial : K) (es : List (Probe K)) (t : K) : Prop where
  tried : ∀ i < o.maxIter.toNat, .value (2 ^ i * trial) ∈ es
  none : o.maxIter.toNat = 0 → t = 0
  last : 0 < o.maxIter.toNat → t = 2 ^ (o.maxIter.toNat - 1) * trial ∧ ψ t < o.c2 * ψ 0

theorem conditions_of_starts {trial : K} (hl : l.Follows φ ψ) (h : Starts l o c trial) :
    c = ⟨φ 0, ψ 0, o.c1, o.c2⟩ := by
  have hv := h.value
  have hs := h.slope
  rw [hl.value, decimal_zero] at hv
  rw [hl.slope, decimal_zero] at hs
  rw [Except.ok.inj hv, Except.ok.inj hs, ← h.c1, ← h.c2]

/-- A step that is found without being accepted is the best of all that were tried. -/
theorem best_of_ends {trial : K} (hl : l.Follows φ ψ) (ho : Ordered o.c1 o.c2) (hd : ψ 0 < 0)
    (ht : 0 ≤ trial) (hc : c = ⟨φ 0, ψ 0, o.c1, o.c2⟩)
    (h : Doubling.Ends l c o.maxZoom.toNat (.initial c trial) o.maxIter.toNat found es) :
    (∃ d, found.ending = .accepted d) ∨
      c.Best φ ([.value 0, .slope 0] ++ es) found.toSample ∧
        (found.ending = .exhausted ∧
            RunsOut o ψ trial ([.value 0, .slope 0] ++ es) found.step ∨
          found.ending = .collapsed ∧ GivesUp l o c trial found.step) := by
  subst hc
  have h1 : 0 ≤ o.c1 := by
    have hpos := ho.1
    rw [decimal_zero] at hpos
    exact hpos.le
  cases h with
  | accepted hk htrail hm =>
    cases hm with
    | accepted => exact .inl ⟨_, rfl⟩
  | bracketed hk htrail hm hz =>
    have hdoubled := Doubling.doubled_trail hl h1 hd.le ht rfl htrail
    obtain ⟨ha, hb⟩ := Doubling.best_bracketed hl h1 hd.le ht hdoubled hm
    cases hz with
    | accepted hk' htrail' hm' =>
      cases hm' with
      | accepted => exact .inl ⟨_, rfl⟩
    | @givenUp _ s _ hk' he htrail' =>
      obtain ⟨-, hbest⟩ := Zoom.best_trail hl ha hb htrail'
      refine .inr ⟨?_, .inr ⟨rfl, _, _, _, _, ⟨_, _, _, _, hk, htrail, hm⟩, htrail', rfl, hk', he⟩⟩
      simpa only [List.append_assoc] using hbest.notice (.zoomStopped s.lo.step)
  | exhausted htrail =>
    have hdoubled := Doubling.doubled_trail hl h1 hd.le ht rfl htrail
    exact .inr ⟨hdoubled.best, .inl ⟨rfl, hdoubled.tried, hdoubled.start, hdoubled.descends⟩⟩

/-- A search along a direction that descends returns a step with its value and with sufficient
decrease. If it accepts a step, the slope there is small, also after the secant step. Else the
doubled steps have run out or an interval is given up, and no step that was tried and has sufficient
decrease has a smaller value. -/
theorem search_certified {n : ℕ} (f : Objective K n) (g : Gradient K n) (x p : Vector K n)
    (hl : (Line.through f g x p).Follows φ ψ) (o : Options K) (ho : Ordered o.c1 o.c2)
    (hd : ψ 0 < 0) (ha : o.previous = none → 0 ≤ o.alpha0) :
    let l := Line.through f g x p
    let c : Conditions K := ⟨φ 0, ψ 0, o.c1, o.c2⟩
    ∃ trial found r es es', Starts l o c trial ∧ find l o = ⟨.ok (c, found), es'⟩ ∧
      search l o = ⟨.ok r, es⟩ ∧
      r.value = φ r.step ∧ 0 ≤ r.step ∧ r.value ≤ φ 0 + o.c1 * r.step * ψ 0 ∧
      match found.ending with
      | .accepted _ => |ψ r.step| ≤ o.c2 * |ψ 0|
      | .exhausted => RunsOut o ψ trial es r.step ∧ IsLeast (φ '' o.decreasing φ ψ es) r.value
      | .collapsed =>
        GivesUp l o c trial r.step ∧ IsLeast (φ '' o.decreasing φ ψ es) r.value := by
  intro l c
  obtain ⟨r, es, hr⟩ := exists_search hl ho hd
  obtain ⟨c', found, es₁, es₂, hf, -, -⟩ := find_of_search hr
  obtain ⟨trial, es', hs, hrun, hes⟩ := starts_of_find hf
  obtain rfl : c' = c := conditions_of_starts hl hs
  have hv := liesOn_search hr
  obtain ⟨c'', trial', hs', hsuf⟩ := sufficient_search ha hr
  obtain rfl : c'' = c := conditions_of_starts hl hs'
  refine ⟨trial, found, r, es, es₁, hs, hf, hr, ?_, hsuf.1, not_lt.mp hsuf.2, ?_⟩
  · rw [Sample.LiesOn, hl.value] at hv
    exact (Except.ok.inj hv).symm
  rcases best_of_ends hl ho hd (nonneg_of_starts ha hs) rfl (Doubling.ends_of_run hrun) with
    ⟨d, he⟩ | ⟨hbest, hend⟩
  · obtain ⟨d', hd', hflat⟩ := flat_of_search hf he hr
    rw [hl.slope] at hd'
    cases hd'
    rw [he, abs_of_neg hd]
    have hflat : |ψ r.step| ≤ -o.c2 * ψ 0 := hflat
    linarith
  · have hn : ∀ d, found.ending ≠ .accepted d := by
      intro d he
      rcases hend with ⟨he', -⟩ | ⟨he', -⟩ <;> cases he'.symm.trans he
    rw [search_of_not_accepted hf hn] at hr
    cases hr
    rw [decimal_zero] at hes
    have hleast := isLeast_of_best rfl rfl rfl (by simp) hbest
    rw [hes]
    rcases hend with ⟨he, hout⟩ | ⟨he, hup⟩
    · rw [he]
      exact ⟨hout, hleast⟩
    · rw [he]
      exact ⟨hup, hleast⟩

/-- With one trial in the interval, the search along the fourth power gives it up. -/
theorem search_certified_quartic :
    let f : Objective ℚ 1 := fun x => .ok (x.get 0 ^ 4)
    let g : Gradient ℚ 1 := fun x => .ok (.ofVector #v[4 * x.get 0 ^ 3])
    let l := Line.through f g #v[1] #v[-1]
    let o : Options ℚ := ⟨3, 1e-4, 0.01, 40, 1, none⟩
    let φ : ℚ → ℚ := fun t => (1 - t) ^ 4
    let ψ : ℚ → ℚ := fun t => -4 * (1 - t) ^ 3
    l.Follows φ ψ ∧ ψ 0 < 0 ∧ ∃ trial r es, search l o = ⟨.ok r, es⟩ ∧ r.step = 2 / 3 ∧
      GivesUp l o ⟨φ 0, ψ 0, o.c1, o.c2⟩ trial (2 / 3) ∧
      IsLeast (φ '' o.decreasing φ ψ es) (1 / 81) := by
  intro f g l o φ ψ
  have hline := Line.follows_single (fun y : ℚ => y ^ 4) (fun y => 4 * y ^ 3) 1 (-1)
  have hl : l.Follows φ ψ := by
    constructor <;> intro t
    · exact (hline.value t).trans (congrArg _ (by ring))
    · exact (hline.slope t).trans (congrArg _ (by ring))
  have hd : ψ 0 < 0 := by decide +kernel
  obtain ⟨trial, found, r, es, es', -, hf, hr, hv, -, -, hend⟩ :=
    search_certified f g #v[1] #v[-1] hl o (by decide +kernel) hd (fun _ => by decide +kernel)
  have hstep : (search l o).outcome.toOption.map (·.step) = some (2 / 3) := by decide +kernel
  have hending : (find l o).outcome.toOption.map (fun p => p.2.ending matches .collapsed) =
      some true := by decide +kernel
  rw [hr] at hstep
  rw [hf] at hending
  have hstep : r.step = 2 / 3 := Option.some.inj hstep
  have hending : (found.ending matches .collapsed) = true := Option.some.inj hending
  have hvalue : r.value = 1 / 81 := by
    rw [hv, hstep]
    decide +kernel
  refine ⟨hl, hd, trial, r, es, hr, hstep, ?_⟩
  cases he : found.ending with
  | collapsed => rwa [he, hstep, hvalue] at hend
  | accepted d =>
    rw [he] at hending
    cases hending
  | exhausted =>
    rw [he] at hending
    cases hending

variable {v b a : K}

/-- Along a parabola that opens upward, a search returns a step; if it accepts one, doubled or found
by zooming, it returns the vertex. A first constant above a half would refuse the vertex. -/
theorem search_vertex {n : ℕ} (f : Objective K n) (g : Gradient K n) (x p : Vector K n)
    (hl : (Line.through f g x p).IsParabola v b a) (hb : b < 0) (ha : 0 < a) (o : Options K)
    (ho : Ordered o.c1 o.c2) (h1 : o.c1 ≤ 1 / 2) :
    let l := Line.through f g x p
    ∃ c found r es es', find l o = ⟨.ok (c, found), es'⟩ ∧ search l o = ⟨.ok r, es⟩ ∧
      ∀ d, found.ending = .accepted d →
        r.step = -b / (2 * a) ∧ r.value = v - b ^ 2 / (4 * a) ∧ l.slope r.step = .ok 0 := by
  intro l
  obtain ⟨r, es, hr⟩ := exists_search (l := l) ⟨hl.value, hl.slope⟩ ho (by simpa using hb)
  obtain ⟨c, found, es₁, es₂, hf, -, -⟩ := find_of_search hr
  refine ⟨c, found, r, es, es₁, hf, hr, ?_⟩
  intro d he
  obtain ⟨r', hr', hstep, hvalue⟩ := search_parabola hl ha h1 hf he
  rw [hr] at hr'
  cases hr'
  refine ⟨hstep, hvalue, ?_⟩
  rw [hstep]
  exact hl.slope_vertex ha

/-- The first step of 0.48 is accepted, and the secant step goes from there to the vertex. -/
theorem search_vertex_square :
    let f : Objective ℚ 1 := fun x => .ok (x.get 0 ^ 2)
    let g : Gradient ℚ 1 := fun x => .ok (.ofVector #v[2 * x.get 0])
    let l := Line.through f g #v[1] #v[-2]
    let o : Options ℚ := ⟨0.48, 1e-4, 0.1, 40, 32, none⟩
    l.IsParabola 1 (-4) 4 ∧ ∃ r es, search l o = ⟨.ok r, es⟩ ∧ r.step = 1 / 2 ∧ r.value = 0 ∧
      l.slope r.step = .ok 0 := by
  intro f g l o
  have hline := Line.follows_single (fun y : ℚ => y ^ 2) (fun y => 2 * y) 1 (-2)
  have hl : l.IsParabola 1 (-4) 4 := by
    constructor <;> intro t
    · exact (hline.value t).trans (congrArg _ (by ring))
    · exact (hline.slope t).trans (congrArg _ (by ring))
  obtain ⟨c, found, r, es, es', hf, hr, hend⟩ := search_vertex f g #v[1] #v[-2] hl (by decide)
    (by decide) o (by decide +kernel) (by decide +kernel)
  obtain ⟨c', found', d, es'', hf', he⟩ := accepted_of_accepts (l := l) (o := o) (by decide +kernel)
  rw [hf] at hf'
  cases hf'
  obtain ⟨hstep, hvalue, hslope⟩ := hend d he
  norm_num at hstep hvalue
  exact ⟨hl, r, es, hr, hstep, hvalue, hslope⟩

end Wolfe
end Descent
