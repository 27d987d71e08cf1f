import Mathlib
import Descent.LineSearch
import Descent.Proofs.Quadratic
import Descent.Proofs.Run.Counting
import Descent.Proofs.Search.Budget

/-! What the searches call: the functions at the places on the line, as many times as they report
and as their budgets allow, and the point is moved only at the end. -/
namespace Descent
variable {K : Type} [Scalar K]

/-- In space too, a gradient is called for right after the value at the same point. -/
theorem Paired.value_before_gradient {n : ℕ} {es : List (Probe K)} (h : Paired es)
    {x d y : Vector K n} {es₁ es₂ : List (Event K n)}
    (heq : es.map (Probe.toEvent x d) = es₁ ++ .gradient y :: es₂) :
    es₁.getLast? = some (.value y) := by
  obtain ⟨ps, qs, rfl, rfl, hqs⟩ := List.map_eq_append_iff.mp heq
  obtain ⟨p, qs, rfl, hp, -⟩ := List.map_eq_cons_iff.mp hqs
  cases p with
  | value t => cases hp
  | notice m => cases hp
  | slope t =>
    cases hp
    rw [List.getLast?_map, h.value_before rfl]
    rfl

/-- A search between lists that is completed had both functions, and is one of a line. -/
theorem Wolfe.search_of_searchFrom {f : Option (∀ n, Objective K n)}
    {g : Option (∀ n, Gradient K n)} {x d : List K} {o : Options K} {r : Step K}
    (h : (searchFrom f g x d o).2.outcome = .ok r) :
    ∃ (c : Course K) (l : Line K) (es : List (Probe K)), search l o = ⟨.ok r, es⟩ ∧
      searchFrom f g x d o = ⟨c.dim, ⟨.ok r, es.map (Probe.toEvent c.point c.direction)⟩⟩ := by
  unfold searchFrom at h ⊢
  by_cases ho : ¬ Ordered o.c1 o.c2
  · rw [if_pos ho] at h
    cases h
  rw [if_neg ho] at h ⊢
  cases hc : Course.ofLists x d with
  | error e =>
    rw [hc] at h
    cases h
  | ok c =>
    rw [hc] at h
    dsimp only at h ⊢
    have hsearch := Traced.eq_of_outcome (r := search _ o) h
    obtain ⟨cond, found, es₁, es₂, hf, -, -⟩ := find_of_search hsearch
    obtain ⟨trial, es', hs, -, -⟩ := starts_of_find hf
    have hvalue := hs.value
    have hslope := hs.slope
    cases f with
    | none => cases hvalue
    | some f =>
      cases g with
      | none => cases hslope
      | some g =>
        refine ⟨c, _, _, hsearch, ?_⟩
        unfold Traced.filterMapEvents
        rw [← List.filterMap_eq_map, show (search _ o).outcome = .ok r from h]
        congr 2
        apply List.filterMap_congr
        rintro (t | t | m) - <;> rfl

namespace LineSearch
variable {s : LineSearch K} {f : ∀ n, Objective K n} {g : ∀ n, Gradient K n} {x d : List K}
  {hint : Option K}

theorem minimizeLists_of_ok {r : Step K}
    (h : (s.minimizeLists f g x d hint).2.2.outcome = .ok r) :
    ∃ c, Course.ofLists x d = .ok c ∧ c.dim = x.length ∧
      (s.minimizeLists f g x d hint).2.1 = (along c.point c.direction r.step).toList ∧
      (s.minimizeLists f g x d hint).1.nfev = r.nfev ∧
      (s.minimizeLists f g x d hint).1.njev = r.njev := by
  unfold minimizeLists at h ⊢
  cases hc : Course.ofLists x d with
  | error e =>
    rw [hc] at h
    cases h
  | ok c =>
    rw [hc] at h
    dsimp only at h ⊢
    rw [h]
    refine ⟨c, rfl, ?_, rfl, rfl, rfl⟩
    cases ho : (s.strategy.search s.searches (c.line (f c.dim) (g c.dim)) hint).outcome with
    | error e =>
      rw [ho] at h
      cases h
    | ok step =>
      rw [ho] at h
      by_contra hne
      change (if c.dim = x.length then _ else _) = _ at h
      rw [if_neg hne] at h
      cases h

theorem minimizeLists_of_error {e : Fault K}
    (h : (s.minimizeLists f g x d hint).2.2.outcome = .error e) :
    (s.minimizeLists f g x d hint).2.1 = x ∧
      (s.minimizeLists f g x d hint).1.nfev = s.nfev ∧
      (s.minimizeLists f g x d hint).1.njev = s.njev := by
  unfold minimizeLists at h ⊢
  cases hc : Course.ofLists x d with
  | error e => exact ⟨rfl, rfl, rfl⟩
  | ok c =>
    rw [hc] at h
    dsimp only at h ⊢
    rw [h]
    exact ⟨rfl, rfl, rfl⟩

end LineSearch

/-- Whatever the arithmetic, a completed Wolfe search reports the calls it has made, within its two
budgets, and calls for a gradient only right after the value at the same point; a completed search
for a bracket and a completed search inside one report their values, within their budgets. The search
without derivatives never asks for a slope. A search moves the point and sets the counts when it has
succeeded, and leaves them alone otherwise; until then it calls the functions on the line through
the point as it was. -/
theorem searches_report_calls :
    (∀ (f : Option (∀ n, Objective K n)) (g : Option (∀ n, Gradient K n)) (x d : List K)
        (o : Wolfe.Options K) (n : ℕ) (r : Step K) (es : List (Event K n)),
      Wolfe.searchFrom f g x d o = ⟨n, ⟨.ok r, es⟩⟩ →
        r.nfev = es.countP Event.isValue ∧ r.njev = es.countP Event.isGradient ∧
        r.nfev ≤ o.maxIter.toNat + o.maxZoom.toNat + 2 ∧ r.njev ≤ r.nfev ∧
        ∀ (y : Vector K n) (es₁ es₂ : List (Event K n)),
          es = es₁ ++ .gradient y :: es₂ → es₁.getLast? = some (.value y)) ∧
    (∀ (l : Line K) (a b : K) (o : Bracket.Options K) (s : Bracket K) (count : ℕ)
        (es : List (Probe K)), Bracket.search l a b o = ⟨.ok (s, count), es⟩ →
      count = es.countP Probe.isValue ∧ 3 ≤ count ∧ count ≤ 3 + 2 * o.maxIter.toNat) ∧
    (∀ (l : Line K) (a b c fb : K) (o : Brent.Options K) (r : Step K) (es : List (Probe K)),
      Brent.search l a b c fb o = ⟨.ok r, es⟩ →
        r.nfev = es.countP Probe.isValue ∧ r.nfev ≤ o.maxIter.toNat) ∧
    (∀ (l : Line K) (o : Brent.Options K) (k : ℕ) (hint : Option K),
      let found := (Strategy.brent o).search k l hint
      (∀ t, .slope t ∉ found.events) ∧ ∀ r, found.outcome = .ok r → r.njev = 0 ∧
        ∃ b count r' es es', Bracket.search l 0.0 1.0 .standard = ⟨.ok (b, count), es⟩ ∧
          Brent.search l b.a b.b b.c b.fb o = ⟨.ok r', es'⟩ ∧ r.nfev = count + r'.nfev) ∧
    (∀ (n : ℕ) (s : LineSearch K) (f : Objective K n) (g : Gradient K n) (x d : Vector K n)
        (hint : Option K),
      let call := s.minimize f g x d hint
      (∀ e ∈ call.found.events, ∃ p : Probe K, e = p.toEvent x d) ∧
      match call.found.outcome with
      | .ok r => call.point = along x d r.step ∧
          call.search.nfev = r.nfev ∧ call.search.njev = r.njev
      | .error _ => call.point = x ∧ call.search.nfev = s.nfev ∧ call.search.njev = s.njev) ∧
    ∀ (s : LineSearch K) (f : ∀ n, Objective K n) (g : ∀ n, Gradient K n) (x d : List K)
        (hint : Option K),
      let call := s.minimizeLists f g x d hint
      match call.2.2.outcome with
      | .ok r => (∃ c, Course.ofLists x d = .ok c ∧ c.dim = x.length ∧
          call.2.1 = (along c.point c.direction r.step).toList) ∧
          call.1.nfev = r.nfev ∧ call.1.njev = r.njev
      | .error _ => call.2.1 = x ∧ call.1.nfev = s.nfev ∧ call.1.njev = s.njev := by
  refine ⟨?_, ?_, ?_, ?_, ?_, ?_⟩
  · intro f g x d o n r es' h
    obtain ⟨c, l, es, hs, hcall⟩ := Wolfe.search_of_searchFrom (congrArg (·.2.outcome) h)
    rw [hcall] at h
    cases h
    rw [countP_isValue_toEvent, countP_isGradient_toEvent]
    obtain ⟨hvalues, hslopes, hle, hle'⟩ := Wolfe.spends_of_search hs
    exact ⟨hvalues, hslopes, hle, hle', fun y es₁ es₂ =>
      (Wolfe.orderly_search hs).paired.value_before_gradient⟩
  · intro l a b o s count es h
    have hcount := (Bracket.counted_search h).values
    rw [Nat.zero_add] at hcount
    exact ⟨hcount, Bracket.count_of_search h⟩
  · intro l a b c fb o r es h
    have hcount := (Brent.counted_run h).values
    obtain ⟨hle, -⟩ := Brent.counts_of_ends (Brent.ends_of_run h)
    rw [Nat.zero_add] at hcount hle
    exact ⟨hcount, hle⟩
  · intro l o k hint found
    constructor
    · intro t ht
      have hemits := Brent.emits_bracketAndSearch (l := l) (o := o) (P := fun p => p ≠ .slope t)
        (by simp) (by simp)
      exact hemits.event ht rfl
    · intro r hr
      obtain ⟨b, count, r', es, es', hb, hr', rfl, -⟩ :=
        Brent.bracket_of_search (Traced.eq_of_outcome hr)
      obtain ⟨-, hzero⟩ := Brent.counts_of_ends (Brent.ends_of_run hr')
      exact ⟨hzero, b, count, r', es, es', hb, hr', rfl⟩
  · intro n s f g x d hint call
    constructor
    · intro e he
      obtain ⟨p, -, rfl⟩ := List.mem_map.mp he
      exact ⟨p, rfl⟩
    · cases h : call.found.outcome with
      | ok r => exact LineSearch.minimize_of_ok h
      | error e => exact LineSearch.minimize_of_error h
  · intro s f g x d hint call
    cases h : call.2.2.outcome with
    | ok r =>
      obtain ⟨c, hc, hdim, hpoint, hcounts⟩ := LineSearch.minimizeLists_of_ok h
      exact ⟨⟨c, hc, hdim, hpoint⟩, hcounts⟩
    | error e => exact LineSearch.minimizeLists_of_error h

/-- Searches of a square, each of them completed. -/
theorem searches_report_calls_square :
    let f : ∀ n, Objective ℚ n := fun _ y => .ok (dot y y)
    let g : ∀ n, Gradient ℚ n := fun _ y => .ok (.ofVector (scale 2 y))
    let l : Line ℚ := ⟨fun t => .ok ((t - 3) ^ 2), fun _ => .error .functionMissing⟩
    let o : Brent.Options ℚ := ⟨1 / 10, 10⟩
    (∃ n r es, Wolfe.searchFrom (some f) (some g) [1] [-1] .standard = ⟨n, ⟨.ok r, es⟩⟩ ∧
      r.nfev = es.countP Event.isValue ∧ r.njev = es.countP Event.isGradient ∧
      r.nfev ≤ 74 ∧ r.njev ≤ r.nfev) ∧
    (∃ s count es, Bracket.search l 0 1 .standard = ⟨.ok (s, count), es⟩ ∧
      count = es.countP Probe.isValue ∧ 3 ≤ count ∧ count ≤ 403) ∧
    (∃ r es, Brent.search l 0 1 5 4 o = ⟨.ok r, es⟩ ∧
      r.nfev = es.countP Probe.isValue ∧ r.nfev ≤ 10) ∧
    ∃ r, ((Strategy.brent o).search 0 l none).outcome = .ok r ∧ r.njev = 0 := by
  intro f g l o
  obtain ⟨hwolfe, hbracket, hsearch, hbrent, -, -⟩ := searches_report_calls (K := ℚ)
  refine ⟨?_, ?_, ?_, ?_⟩
  · obtain ⟨r, hr⟩ := Traced.exists_of_isOk
      (r := (Wolfe.searchFrom (some f) (some g) [1] [-1] .standard).2) (by decide +kernel)
    have hcall : Wolfe.searchFrom (some f) (some g) [1] [-1] .standard = ⟨_, ⟨.ok r, _⟩⟩ :=
      congrArg (Sigma.mk _) hr
    obtain ⟨hvalues, hslopes, hle, hle', -⟩ := hwolfe _ _ _ _ _ _ _ _ hcall
    exact ⟨_, r, _, hcall, hvalues, hslopes, hle, hle'⟩
  · obtain ⟨⟨s, count⟩, hs⟩ := Traced.exists_of_isOk (r := Bracket.search l 0 1 .standard)
      (by decide +kernel)
    exact ⟨s, count, _, hs, hbracket _ _ _ _ _ _ _ hs⟩
  · obtain ⟨r, hr⟩ := Traced.exists_of_isOk (r := Brent.search l 0 1 5 4 o) (by decide +kernel)
    exact ⟨r, _, hr, hsearch _ _ _ _ _ _ _ _ hr⟩
  · obtain ⟨r, hr⟩ := Traced.exists_of_isOk (r := (Strategy.brent o).search 0 l none)
      (by decide +kernel)
    obtain ⟨-, hok⟩ := hbrent l o 0 none
    have hout : ((Strategy.brent o).search 0 l none).outcome = .ok r := congrArg (·.outcome) hr
    exact ⟨r, hout, (hok r hout).1⟩

end Descent
