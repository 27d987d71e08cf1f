import Mathlib
import Descent.Proofs.Certificate
import Descent.Proofs.ExactSearch

/-! In exact arithmetic the Fletcher-Reeves method needs no restart, if every search ends where the
slope is less than half as steep as at its start. The bound from below on the slopes is what makes
the bound from above last. -/
namespace Descent
open Matrix
variable {K : Type} [Field K] [LinearOrder K] {n : ℕ} {c2 : K}

/-- The slope along `d` at a gradient `c`, in proportion to the square of the gradient, is between
`-1 / (1 - c2)` and `(2 c2 - 1) / (1 - c2)`. -/
structure Proportionate (c2 : K) (c d : Fin n → K) : Prop where
  lower : -(c ⬝ᵥ c) ≤ (1 - c2) * (c ⬝ᵥ d)
  upper : (1 - c2) * (c ⬝ᵥ d) ≤ (2 * c2 - 1) * (c ⬝ᵥ c)

namespace Proportionate
variable [IsStrictOrderedRing K] {c c' d : Fin n → K}

/-- The negative gradient has proportion minus one. -/
theorem neg (h0 : 0 ≤ c2) : Proportionate c2 c (-c) := by
  have hp := mul_nonneg h0 (dot_self_nonneg (v := c))
  constructor <;> rw [dotProduct_neg] <;> linarith

/-- Where there is a gradient, the direction descends. -/
theorem descends (h : Proportionate c2 c d) (h2 : c2 < 1 / 2) (hne : c ≠ 0) : c ⬝ᵥ d < 0 := by
  have hneg : (2 * c2 - 1) * (c ⬝ᵥ c) < 0 :=
    mul_neg_of_neg_of_pos (by linarith) (dot_self_pos hne)
  exact (pos_iff_neg_of_mul_neg (h.upper.trans_lt hneg)).mp (by linarith)

theorem ratio (h : Proportionate c2 c d) (h2 : c2 < 1 / 2) (hne : c ≠ 0) :
    -1 / (1 - c2) ≤ c ⬝ᵥ d / (c ⬝ᵥ c) ∧ c ⬝ᵥ d / (c ⬝ᵥ c) ≤ (2 * c2 - 1) / (1 - c2) := by
  have hc := dot_self_pos hne
  have h1 : 0 < 1 - c2 := by linarith
  have hl := h.lower
  have hu := h.upper
  rw [div_le_div_iff₀ h1 hc, div_le_div_iff₀ hc h1]
  constructor <;> linarith

/-- After the step, the slope along the same direction is small against the square of the gradient
before it, since the slope before it was not too steep. -/
theorem slope_le (h : Proportionate c2 c d) (h0 : 0 ≤ c2) (h1 : c2 < 1)
    (hflat : |c' ⬝ᵥ d| ≤ -c2 * (c ⬝ᵥ d)) : (1 - c2) * |c' ⬝ᵥ d| ≤ c2 * (c ⬝ᵥ c) := by
  calc (1 - c2) * |c' ⬝ᵥ d|
    _ ≤ (1 - c2) * (-c2 * (c ⬝ᵥ d)) := mul_le_mul_of_nonneg_left hflat (by linarith)
    _ = c2 * -((1 - c2) * (c ⬝ᵥ d)) := by ring
    _ ≤ c2 * (c ⬝ᵥ c) := mul_le_mul_of_nonneg_left (neg_le.mp h.lower) h0

/-- The negative gradient and the last direction with its weight have a sum in proportion. -/
theorem combined (hne : c ≠ 0) (hs : (1 - c2) * |c' ⬝ᵥ d| ≤ c2 * (c ⬝ᵥ c)) (h1 : c2 < 1) :
    Proportionate c2 c' (Method.fletcherReeves.gamma c c' • d - c') := by
  have hc := dot_self_pos hne
  -- the slope along the last direction, in units of the square of the gradient before it
  have hweighed : |(1 - c2) * (c' ⬝ᵥ c' / (c ⬝ᵥ c) * (c' ⬝ᵥ d))| ≤ c2 * (c' ⬝ᵥ c') := by
    have hw : 0 ≤ c' ⬝ᵥ c' / (c ⬝ᵥ c) := div_nonneg dot_self_nonneg hc.le
    calc |(1 - c2) * (c' ⬝ᵥ c' / (c ⬝ᵥ c) * (c' ⬝ᵥ d))|
      _ = c' ⬝ᵥ c' / (c ⬝ᵥ c) * ((1 - c2) * |c' ⬝ᵥ d|) := by
        rw [abs_mul, abs_mul, abs_of_nonneg hw, abs_of_pos (by linarith : 0 < 1 - c2)]
        ring
      _ ≤ c' ⬝ᵥ c' / (c ⬝ᵥ c) * (c2 * (c ⬝ᵥ c)) := mul_le_mul_of_nonneg_left hs hw
      _ = c2 * (c' ⬝ᵥ c') := by field_simp
  have heq : (1 - c2) * (c' ⬝ᵥ (Method.fletcherReeves.gamma c c' • d - c')) =
      (1 - c2) * (c' ⬝ᵥ c' / (c ⬝ᵥ c) * (c' ⬝ᵥ d)) - (1 - c2) * (c' ⬝ᵥ c') := by
    rw [dotProduct_sub, dotProduct_smul, smul_eq_mul, mul_sub]
    rfl
  obtain ⟨hl, hu⟩ := abs_le.mp hweighed
  constructor <;> rw [heq] <;> linarith

/-- The next direction is in proportion. -/
theorem direction (h : Proportionate c2 c d) (h0 : 0 ≤ c2) (h1 : c2 < 1) (hne : c ≠ 0)
    (hflat : |c' ⬝ᵥ d| ≤ -c2 * (c ⬝ᵥ d)) :
    Proportionate c2 c' (Method.fletcherReeves.direction c c' d) := by
  unfold Method.direction
  dsimp only
  split
  · exact combined hne (h.slope_le h0 h1 hflat) h1
  · exact neg h0

end Proportionate

variable [IsStrictOrderedRing K] [SquareRoot K]

namespace Run
variable {s : Setup K n} {v : Bool} {r r' : Run K n} {step : Step K} {gamma : K}

/-- The slope at the end of the search is at most `c2` times as steep as at its start. -/
def Flattens (s : Setup K n) (c2 : K) (r : Run K n) (step : Step K) : Prop :=
  ∀ c c', s.vectorGradient r.x = .ok c → s.vectorGradient (along r.x r.u step.step) = .ok c' →
    |c'.get ⬝ᵥ r.u.get| ≤ -c2 * (c.get ⬝ᵥ r.u.get)

/-- A Wolfe search that accepts a step flattens the line, also with the secant step. -/
theorem flattens_of_accepted {w : Wolfe.Options K} {c : Conditions K} {found : Found K} {d : K}
    {es : List (Probe K)} (hw : r.search.strategy = .wolfe w)
    (hf : Wolfe.find (.through s.objective s.gradient r.x r.u) { w with previous := some r.fold } =
      ⟨.ok (c, found), es⟩)
    (he : found.ending = .accepted d) (hs : r.Searches s step) : r.Flattens s w.c2 step := by
  intro g g' hg hg'
  have hfound : (r.search.strategy.search r.search.searches
    (.through s.objective s.gradient r.x r.u) (some r.fold)).outcome = .ok step := hs.found
  rw [hw] at hfound
  obtain ⟨d', hd', hflat⟩ := Wolfe.flat_of_search hf he (Traced.eq_of_outcome hfound)
  obtain ⟨trial, es', hstarts, -, -⟩ := Wolfe.starts_of_find hf
  have hslope := hstarts.slope
  rw [slope_through hg] at hslope
  rw [slope_of_vectorGradient hg'] at hd'
  cases hd'
  unfold Conditions.Flat at hflat
  rw [hstarts.c2, ← Except.ok.inj hslope] at hflat
  exact hflat

variable {c : Vector K n} (hr : r.Steers s) (hc : s.vectorGradient r.x = .ok c)
  (hflat : ∀ step, r.Searches s step → r.Flattens s c2 step)
include hr hc hflat

/-- Before the next direction, the slope along the last one is small. -/
theorem slope_of_passes (h : r.Passes s v r')
    (hw : quotient (r'.weight s.settings.method) r'.squaredNorm = .ok gamma) :
    s.vectorGradient r'.x = .ok r'.u ∧ c.get ≠ 0 ∧
      |r'.u.get ⬝ᵥ r.u.get| ≤ -c2 * (c.get ⬝ᵥ r.u.get) := by
  obtain ⟨hsq, hc', -, -⟩ := sum_of_passes hr hc h hw
  refine ⟨hc', fun h0 => hsq (by rw [h0, dotProduct_zero]), ?_⟩
  obtain ⟨step, c', nfev, hs, -, hg, rfl⟩ := eq_of_differentiates h.differentiates
  exact hflat step hs c c' hc hg

variable (hm : s.settings.method = .fletcherReeves) (hp : Proportionate c2 c.get r.u.get)
include hm hp

theorem proportionate_of_completes (h0 : 0 ≤ c2) (h1 : c2 < 1) (h : r.Completes s v r') :
    ∃ c', s.vectorGradient r'.x = .ok c' ∧ Proportionate c2 c'.get r'.u.get := by
  obtain ⟨-, -, c', hc', hd⟩ := direction_of_completes hr hc h
  refine ⟨c', hc', ?_⟩
  cases h with
  | intro hpasses hw =>
    obtain ⟨hg, hne, hslope⟩ := slope_of_passes hr hc hflat hpasses hw
    rw [(turned_alike _ _).x, hg] at hc'
    cases hc'
    rw [hd, hm]
    exact hp.direction h0 h1 hne hslope

/-- Where the method restarts, there is no gradient. -/
theorem gradient_of_restarts (h0 : 0 ≤ c2) (h2 : c2 < 1 / 2) (h : r.Restarts s v r' gamma) :
    s.vectorGradient r'.x = .ok (zeros n) := by
  obtain ⟨hg, hne, hslope⟩ := slope_of_passes hr hc hflat h.passes h.weight
  have hascends := not_descends_of_restarts hr hc h
  rw [hm] at hascends
  have h1 : c2 < 1 := by linarith
  have hzero : r'.u.get = 0 := by
    by_contra hne'
    exact hascends ((Proportionate.combined hne (hp.slope_le h0 h1 hslope) h1).descends h2 hne')
  rw [hg]
  congr 1
  apply get_injective
  rw [hzero, get_zeros]

end Run

namespace Optimizer
variable {o : Optimizer K n} {debug : Bool} {x₀ : Vector K n} {r : Run K n} {k : ℕ}

/-- All directions that a run turns to are in proportion. -/
theorem proportionate_of_reaches (hm : o.setup.settings.method = .fletcherReeves) (h0 : 0 ≤ c2)
    (h1 : c2 < 1) (hflat : ∀ k r step, o.Reaches debug x₀ k r → r.Searches o.setup step →
      r.Flattens o.setup c2 step) (h : o.Reaches debug x₀ k r) :
    ∃ c, o.setup.vectorGradient r.x = .ok c ∧ Proportionate c2 c.get r.u.get := by
  induction k generalizing r with
  | zero =>
    obtain ⟨r₀, hb, -, -, rfl⟩ := h
    cases hb with
    | @intro _ c _ hg =>
      have hneg : Proportionate c2 c.get (-c).get := by
        rw [get_neg]
        exact .neg h0
      exact ⟨c, hg, hneg⟩
  | succ k ih =>
    obtain ⟨r', hr'⟩ := h.mono (Nat.le_succ k)
    obtain ⟨c, hc, hp⟩ := ih hr'
    obtain ⟨r'', hcompletes, rfl⟩ := completes_of_reaches hr' h
    obtain ⟨c', hc', hp'⟩ := Run.proportionate_of_completes (steers_of_reaches hr') hc
      (fun step => hflat k r' step hr') hm hp h0 h1 hcompletes
    exact ⟨c', hc', hp'⟩

/-- If every search of a run of the Fletcher-Reeves method leaves a slope of at most `c2` times that
at its start, with `c2` below a half, then every direction that is searched is in proportion, and
the method restarts only where the gradient is zero. A Wolfe search with that constant leaves such a
slope where it accepts a step. -/
theorem directions_proportionate (o : Optimizer K n) (debug : Bool) (x₀ : Vector K n) (c2 : K)
    (hm : o.setup.settings.method = .fletcherReeves) (ht : 0 < o.setup.settings.tiny)
    (h0 : 0 < c2) (h2 : c2 < 1 / 2) :
    (∀ k r w c found d es step, o.Reaches debug x₀ k r → o.memory.search.strategy = .wolfe w →
      w.c2 = c2 →
      Wolfe.find (.through o.setup.objective o.setup.gradient r.x r.u)
        { w with previous := some r.fold } = ⟨.ok (c, found), es⟩ →
      found.ending = .accepted d → r.Searches o.setup step → r.Flattens o.setup c2 step) ∧
    ((∀ k r step, o.Reaches debug x₀ k r → r.Searches o.setup step →
        r.Flattens o.setup c2 step) →
      (∀ k x d, o.Launches debug x₀ k x d → ∃ c, o.setup.vectorGradient x = .ok c ∧
        0 < c.get ⬝ᵥ c.get ∧ -1 / (1 - c2) ≤ c.get ⬝ᵥ d.get / (c.get ⬝ᵥ c.get) ∧
        c.get ⬝ᵥ d.get / (c.get ⬝ᵥ c.get) ≤ (2 * c2 - 1) / (1 - c2) ∧
        (2 * c2 - 1) / (1 - c2) < 0) ∧
      (∀ k r r' gamma, o.Reaches debug x₀ k r →
        r.Restarts o.setup (o.setup.settings.verifies debug) r' gamma →
        o.setup.vectorGradient r'.x = .ok (zeros n)) ∧
      ∀ m, .notice (.restarted m) ∈ (o.minimizeFrom debug x₀).events →
        (∃ k r, o.Reaches debug x₀ k r ∧
          .notice (.restarted m) ∈ (r.searched o.setup).found.events) ∨
        ∃ k x, o.Visits debug x₀ (k + 1) x ∧ o.setup.vectorGradient x = .ok (zeros n)) := by
  have h1 : c2 < 1 := by linarith
  refine ⟨?_, ?_⟩
  · rintro k r w c found d es step hr hw rfl hf he hs
    exact Run.flattens_of_accepted ((strategy_of_reaches hr).trans hw) hf he hs
  intro hflat
  have hrestarts : ∀ k r r' gamma, o.Reaches debug x₀ k r →
      r.Restarts o.setup (o.setup.settings.verifies debug) r' gamma →
      o.setup.vectorGradient r'.x = .ok (zeros n) := by
    intro k r r' gamma hr h
    obtain ⟨c, hc, hp⟩ := proportionate_of_reaches hm h0.le h1 hflat hr
    exact Run.gradient_of_restarts (steers_of_reaches hr) hc (fun step => hflat k r step hr) hm hp
      h0.le h2 h
  refine ⟨?_, hrestarts, ?_⟩
  · rintro k x d ⟨r, hr, hz, rfl, rfl⟩
    obtain ⟨c, hc, hp⟩ := proportionate_of_reaches hm h0.le h1 hflat hr
    have hne : c.get ≠ 0 := by
      intro h0
      apply hz
      rw [Run.squaredNorm_of_neg ((steers_of_reaches hr).eq_neg hc), h0, dotProduct_zero, abs_eq,
        abs_zero]
      exact ht
    obtain ⟨hl, hu⟩ := hp.ratio h2 hne
    exact ⟨c, hc, dot_self_pos hne, hl, hu, div_neg_of_neg_of_pos (by linarith) (by linarith)⟩
  · intro m hmem
    rcases begins_or_abandons o x₀ with ⟨r₀, hb⟩ | ⟨nfev, events, e, ha⟩
    · obtain ⟨k, r, hr, ⟨-, hmem⟩ | ⟨r', gamma, h⟩⟩ := restarted_cases hb hmem
      · exact .inl ⟨k, r, hr, hmem⟩
      · obtain ⟨step, c, nfev, hs, -, -, rfl⟩ := Run.eq_of_differentiates h.passes.differentiates
        exact .inr ⟨k, _, .moved hr hs, hrestarts k r _ gamma hr h⟩
    · rw [minimizeFrom_of_abandons debug ha] at hmem
      cases ha <;> simp [abandon] at hmem

/-- On a sum of a fourth power and a square, where the standard Wolfe search is not exact, the
second direction is in proportion. -/
theorem directions_proportionate_quartic :
    let s : Settings ℚ :=
      { Settings.exact with maxIter := 2, maxIter_pos := by decide, method := .fletcherReeves }
    let o : Optimizer ℚ 2 :=
      ⟨⟨fun x => .ok (x.get 0 ^ 4 + x.get 1 ^ 2),
        fun x => .ok (.ofVector #v[4 * x.get 0 ^ 3, 2 * x.get 1]), s⟩, .initial (.wolfe .standard)⟩
    ∃ x d c, o.Launches false #v[2, 1] 1 x d ∧ o.setup.vectorGradient x = .ok c ∧
      0 < c.get ⬝ᵥ c.get ∧ -10 / 9 ≤ c.get ⬝ᵥ d.get / (c.get ⬝ᵥ c.get) ∧
      c.get ⬝ᵥ d.get / (c.get ⬝ᵥ c.get) ≤ -8 / 9 := by
  intro s o
  have hg : ∀ x, o.setup.vectorGradient x = .ok #v[4 * x.get 0 ^ 3, 2 * x.get 1] := by
    intro x
    simp only [Setup.vectorGradient, o, bind, Except.bind, Tensor.toVector?_ofVector]
  let x₀ : Vector ℚ 2 := #v[2, 1]
  let r₀ := o.begin x₀ (x₀.get 0 ^ 4 + x₀.get 1 ^ 2) #v[4 * x₀.get 0 ^ 3, 2 * x₀.get 1]
  let r (k : ℕ) : Run ℚ 2 := { Run.after o.setup false r₀ k with nit := k }
  have hb : o.Begins x₀ r₀ := .intro rfl (hg x₀)
  have heq : ∀ k r', o.Reaches false x₀ k r' → k < 2 ∧ r' = r k := by
    rintro k r' ⟨r₁, hb', hk, -, rfl⟩
    rw [← begins_unique hb hb']
    exact ⟨hk, rfl⟩
  have haccepts : ∀ k < 2,
      Wolfe.accepts (.through o.setup.objective o.setup.gradient (r k).x (r k).u)
        { Wolfe.Options.standard with previous := some (r k).fold } = true := by
    decide +kernel
  obtain ⟨hwolfe, hrun⟩ := directions_proportionate o false x₀ 0.1 rfl (by decide +kernel)
    (by decide +kernel) (by decide +kernel)
  have hflat : ∀ k r' step, o.Reaches false x₀ k r' → r'.Searches o.setup step →
      r'.Flattens o.setup 0.1 step := by
    intro k r' step hr hs
    obtain ⟨hk, rfl⟩ := heq k r' hr
    obtain ⟨c, found, d, es, hf, he⟩ := Wolfe.accepted_of_accepts (haccepts k hk)
    exact hwolfe k (r k) .standard c found d es step hr rfl rfl hf he hs
  have hreaches : o.Reaches false x₀ 1 (r 1) := by
    refine ⟨r₀, hb, by decide, ?_, rfl⟩
    have hexit : (Run.iterate o.setup false 0 r₀).exit.isNone = true := by decide +kernel
    exact Run.live_succ.mpr ⟨Run.live_zero, Option.isNone_iff_eq_none.mp hexit⟩
  have hlaunches : o.Launches false x₀ 1 (r 1).x (r 1).u :=
    ⟨r 1, hreaches, by decide +kernel, rfl, rfl⟩
  obtain ⟨c, hc, hpos, hl, hu, -⟩ := (hrun hflat).1 1 _ _ hlaunches
  have hlower : -1 / (1 - 0.1) = (-10 / 9 : ℚ) := by norm_num
  have hupper : (2 * 0.1 - 1) / (1 - 0.1) = (-8 / 9 : ℚ) := by norm_num
  rw [hlower] at hl
  rw [hupper] at hu
  exact ⟨_, _, c, hlaunches, hc, hpos, hl, hu⟩

end Optimizer
end Descent
