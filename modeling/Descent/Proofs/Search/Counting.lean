import Descent.Proofs.Search.Brent
import Descent.Proofs.Search.Wolfe
import Descent.Strategy

/-! Every search tells how many values and slopes it has asked for. -/
namespace Descent
variable {K : Type} {es es' : List (Probe K)}

namespace Probe

def isValue : Probe K → Bool
  | value _ => true
  | slope _ => false
  | notice _ => false

def isSlope : Probe K → Bool
  | value _ => false
  | slope _ => true
  | notice _ => false

end Probe

/-- Two counts have grown by the values and the slopes among the probes. -/
structure Counted (es : List (Probe K)) (nfev njev nfev' njev' : Nat) : Prop where
  values : nfev' = nfev + es.countP Probe.isValue
  slopes : njev' = njev + es.countP Probe.isSlope

theorem Counted.trans {a b c d e f : Nat} (h : Counted es a b c d) (h' : Counted es' c d e f) :
    Counted (es ++ es') a b e f := by
  constructor
  · rw [List.countP_append, h'.values, h.values, Nat.add_assoc]
  · rw [List.countP_append, h'.slopes, h.slopes, Nat.add_assoc]

/-- Counts that begin at zero may begin anywhere. -/
theorem Counted.shift {a b : Nat} (h : Counted es 0 0 a b) (m m' : Nat) :
    Counted es m m' (m + a) (m' + b) := by
  constructor
  · rw [h.values, Nat.zero_add]
  · rw [h.slopes, Nat.zero_add]

variable [Scalar K] {l : Line K} {c : Conditions K}

namespace Zoom
variable {s : State K} {w : Verdict K} {found : Found K}

def Verdict.nfev : Verdict K → Nat
  | accepted found => found.nfev
  | narrowed s => s.nfev

def Verdict.njev : Verdict K → Nat
  | accepted found => found.njev
  | narrowed s => s.njev

theorem counted_moves (h : Moves l c s w es) : Counted es s.nfev s.njev w.nfev w.njev := by
  cases h with
  | shortened ht hv hr => exact ⟨rfl, rfl⟩
  | accepted ht hv hr hd hf => exact ⟨rfl, rfl⟩
  | moved ht hv hr hd hf => exact ⟨rfl, rfl⟩

omit [Scalar K] in
theorem counted_giveUp (h : giveUp s = ⟨.ok found, es⟩) :
    Counted es s.nfev s.njev found.nfev found.njev := by
  cases h
  exact ⟨rfl, rfl⟩

theorem counted_run {budget : Nat} (h : run l c budget s = ⟨.ok found, es⟩) :
    Counted es s.nfev s.njev found.nfev found.njev := by
  induction budget generalizing s es with
  | zero => exact counted_giveUp h
  | succ budget ih =>
    rw [run, Traced.bind_eq_ok] at h
    obtain ⟨w, es₁, es₂, hw, h, rfl⟩ := h
    have hw := counted_moves (moves_of_step hw)
    cases w with
    | accepted f =>
      obtain ⟨rfl, rfl⟩ := Traced.pure_eq_ok.mp h
      exact hw.trans ⟨rfl, rfl⟩
    | narrowed s' =>
      dsimp only at h
      split at h
      · exact hw.trans (counted_giveUp h)
      · exact hw.trans (ih h)

end Zoom

namespace Wolfe

namespace Doubling
variable {s : State K} {w : Verdict K} {found : Found K}

def Verdict.nfev : Verdict K → Nat
  | accepted found => found.nfev
  | bracketed s => s.nfev
  | descending s => s.nfev

def Verdict.njev : Verdict K → Nat
  | accepted found => found.njev
  | bracketed s => s.njev
  | descending s => s.njev

theorem counted_moves (h : Moves l c s w es) : Counted es s.nfev s.njev w.nfev w.njev := by
  cases h with
  | high hv hr => exact ⟨rfl, rfl⟩
  | accepted hv hr hd hf => exact ⟨rfl, rfl⟩
  | rising hv hr hd hf hp => exact ⟨rfl, rfl⟩
  | descending hv hr hd hf hp => exact ⟨rfl, rfl⟩

theorem counted_run {maxZoom budget : Nat} (h : run l c maxZoom budget s = ⟨.ok found, es⟩) :
    Counted es s.nfev s.njev found.nfev found.njev := by
  induction budget generalizing s es with
  | zero =>
    obtain ⟨rfl, rfl⟩ := Traced.pure_eq_ok.mp h
    exact ⟨rfl, rfl⟩
  | succ budget ih =>
    rw [run, Traced.bind_eq_ok] at h
    obtain ⟨w, es₁, es₂, hw, h, rfl⟩ := h
    have hw := counted_moves (moves_of_step hw)
    cases w with
    | accepted f =>
      obtain ⟨rfl, rfl⟩ := Traced.pure_eq_ok.mp h
      exact hw.trans ⟨rfl, rfl⟩
    | bracketed z => exact hw.trans (Zoom.counted_run h)
    | descending s' => exact hw.trans (ih h)

end Doubling

variable {o : Options K}

theorem counted_refines {s r : Step K} {d : K} (h : Refines l c s d r es) :
    Counted es s.nfev s.njev r.nfev r.njev := by
  cases h with
  | flat h => exact ⟨rfl, rfl⟩
  | useless h ht hu => exact ⟨rfl, rfl⟩
  | high h ht hu hv hr => exact ⟨rfl, rfl⟩
  | steeper h ht hu hv hr hd hs => exact ⟨rfl, rfl⟩
  | taken h ht hu hv hr hd hs => exact ⟨rfl, rfl⟩

theorem counted_find {found : Found K} (h : find l o = ⟨.ok (c, found), es⟩) :
    Counted es 0 0 found.nfev found.njev := by
  obtain ⟨trial, es', -, hrun, rfl⟩ := starts_of_find h
  have hstart : Counted [Probe.value (0.0 : K), .slope 0.0] 0 0 1 1 := ⟨rfl, rfl⟩
  exact hstart.trans (Doubling.counted_run hrun)

theorem counted_search {r : Step K} (h : search l o = ⟨.ok r, es⟩) :
    Counted es 0 0 r.nfev r.njev := by
  obtain ⟨c, found, es₁, es₂, hf, rfl, ⟨d, -, hr⟩ | ⟨-, rfl, rfl⟩⟩ := find_of_search h
  · exact (counted_find hf).trans (counted_refines hr)
  · exact (counted_find hf).trans ⟨rfl, rfl⟩

end Wolfe

namespace Bracket
variable {s s' : Bracket K} {count : Nat} {o : Options K}

theorem counted_moves {growLimit : K} {w : Verdict K} (h : Moves l growLimit s w count es)
    (m : Nat) : Counted es m 0 (m + count) 0 := by
  cases h with
  | insideLower hu hi hv hl => exact ⟨rfl, rfl⟩
  | insideHigher hu hi hv hl hh => exact ⟨rfl, rfl⟩
  | insideUseless hu hi hv hl hh hw => exact ⟨rfl, rfl⟩
  | outsideLower hu hi ho hv hl hw => exact ⟨rfl, rfl⟩
  | outsideHigher hu hi ho hv hl => exact ⟨rfl, rfl⟩
  | farthest hu hi ho hf hv => exact ⟨rfl, rfl⟩
  | back hu hi ho hf hw => exact ⟨rfl, rfl⟩

theorem counted_run {budget nfev : Nat} (h : run l o budget s nfev = ⟨.ok (s', count), es⟩) :
    Counted es nfev 0 count 0 := by
  induction budget generalizing s nfev es with
  | zero => cases h
  | succ budget ih =>
    rw [run] at h
    split at h
    · obtain ⟨⟨⟩, rfl⟩ := Traced.pure_eq_ok.mp h
      exact ⟨rfl, rfl⟩
    · rw [Traced.bind_eq_ok] at h
      obtain ⟨⟨w, k⟩, es₁, es₂, hw, h, rfl⟩ := h
      have hcount := counted_moves (moves_of_expand hw) nfev
      cases w with
      | found t =>
        obtain ⟨⟨⟩, rfl⟩ := Traced.pure_eq_ok.mp h
        exact hcount.trans ⟨rfl, rfl⟩
      | next t => exact hcount.trans (ih h)

/-- The first three points take three values. -/
theorem counted_initial {a b : K} (h : initial l a b = ⟨.ok s, es⟩) : Counted es 0 0 3 0 := by
  rw [events_initial h]
  exact ⟨rfl, rfl⟩

theorem counted_search {a b : K} (h : search l a b o = ⟨.ok (s, count), es⟩) :
    Counted es 0 0 count 0 := by
  obtain ⟨s₀, es₁, es₂, hi, hr, rfl⟩ := initial_of_search h
  exact (counted_initial hi).trans (counted_run hr)

end Bracket

namespace Brent
variable {s : State K} {o : Options K} {r : Step K}

theorem counted_run {budget nfev : Nat} (h : run l o budget s nfev = ⟨.ok r, es⟩) :
    Counted es nfev 0 r.nfev r.njev := by
  induction budget generalizing s nfev es with
  | zero =>
    cases h
    exact ⟨rfl, rfl⟩
  | succ budget ih =>
    rw [run] at h
    split at h
    · obtain ⟨rfl, rfl⟩ := Traced.pure_eq_ok.mp h
      exact ⟨rfl, rfl⟩
    · rw [Traced.bind_eq_ok] at h
      obtain ⟨s', es₁, es₂, hstep, h, rfl⟩ := h
      obtain ⟨t, fu, -, -, -, rfl⟩ := update_of_step hstep
      have hvalue : Counted [Probe.value (t.trial o.tol)] nfev 0 (nfev + 1) 0 := ⟨rfl, rfl⟩
      exact hvalue.trans (ih h)

theorem counted_bracketAndSearch (h : bracketAndSearch l o = ⟨.ok r, es⟩) :
    Counted es 0 0 r.nfev r.njev := by
  obtain ⟨s, nfev, found, es₁, es₂, hb, hf, rfl, rfl⟩ := bracket_of_search h
  have hfound : Counted es₂ nfev 0 (nfev + found.nfev) (0 + found.njev) :=
    (counted_run hf).shift nfev 0
  rw [Nat.zero_add] at hfound
  exact (Bracket.counted_search hb).trans hfound

end Brent

/-- The counts that a search reports are those of its probes. -/
def Strategy.Counts {n : Nat} (st : Strategy K) (f : Objective K n) (g : Gradient K n) : Prop :=
  ∀ ⦃k : Nat⦄ ⦃x d : Vector K n⦄ ⦃hint : Option K⦄ ⦃step : Step K⦄ ⦃es : List (Probe K)⦄,
    st.search k (.through f g x d) hint = ⟨.ok step, es⟩ → Counted es 0 0 step.nfev step.njev

theorem Strategy.counts_of_standard {n : Nat} {st : Strategy K}
    (hs : (∃ w, st = .wolfe w) ∨ ∃ b, st = .brent b) (f : Objective K n) (g : Gradient K n) :
    st.Counts f g := by
  intro k x d hint step es h
  rcases hs with ⟨w, rfl⟩ | ⟨b, rfl⟩
  · exact Wolfe.counted_search h
  · exact Brent.counted_bracketAndSearch h

end Descent
