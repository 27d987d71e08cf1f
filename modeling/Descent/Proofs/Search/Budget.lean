import Descent.Proofs.Search.Counting
import Descent.Proofs.Search.Trail

/-! Where a search asks for slopes, and how many values its budgets let it ask for. Nothing is used
of the arithmetic: the comparisons may come out in any way. -/
namespace Descent
variable {K : Type} {es es' : List (Probe K)} {k k' : Nat}

/-- Each slope is asked for right after the value at the same place. -/
inductive Paired : List (Probe K) → Prop
  | nil : Paired []
  | value {es : List (Probe K)} (t : K) (h : Paired es) : Paired (.value t :: es)
  | slope {es : List (Probe K)} (t : K) (h : Paired es) : Paired (.value t :: .slope t :: es)
  | notice {es : List (Probe K)} (m : Notice K) (h : Paired es) : Paired (.notice m :: es)

namespace Paired

theorem append (h : Paired es) (h' : Paired es') : Paired (es ++ es') := by
  induction h with
  | nil => exact h'
  | value t _ ih => exact .value t ih
  | slope t _ ih => exact .slope t ih
  | notice m _ ih => exact .notice m ih

theorem slopes_le_values (h : Paired es) : es.countP Probe.isSlope ≤ es.countP Probe.isValue := by
  induction h with
  | nil => exact Nat.le_refl 0
  | value t _ ih =>
    rw [List.countP_cons_of_neg Bool.false_ne_true, List.countP_cons_of_pos rfl]
    exact Nat.le_succ_of_le ih
  | slope t _ ih =>
    rw [List.countP_cons_of_neg Bool.false_ne_true, List.countP_cons_of_pos rfl,
      List.countP_cons_of_pos rfl, List.countP_cons_of_neg Bool.false_ne_true]
    exact Nat.succ_le_succ ih
  | notice m _ ih =>
    rw [List.countP_cons_of_neg Bool.false_ne_true, List.countP_cons_of_neg Bool.false_ne_true]
    exact ih

theorem value_before (h : Paired es) {es₁ es₂ : List (Probe K)} {t : K}
    (heq : es = es₁ ++ .slope t :: es₂) : es₁.getLast? = some (.value t) := by
  induction h generalizing es₁ with
  | nil => simp at heq
  | value t' _ ih =>
    cases es₁ with
    | nil => cases heq
    | cons p es₁ =>
      obtain ⟨-, heq⟩ := List.cons.inj heq
      rw [List.getLast?_cons, ih heq]
      rfl
  | slope t' _ ih =>
    match es₁, heq with
    | [p], heq =>
      cases heq
      rfl
    | p :: q :: es₁, heq =>
      obtain ⟨-, heq⟩ := List.cons.inj heq
      obtain ⟨-, heq⟩ := List.cons.inj heq
      rw [List.getLast?_cons, List.getLast?_cons, ih heq]
      rfl
  | notice m _ ih =>
    cases es₁ with
    | nil => cases heq
    | cons p es₁ =>
      obtain ⟨-, heq⟩ := List.cons.inj heq
      rw [List.getLast?_cons, ih heq]
      rfl

end Paired

/-- Slopes only beside their values, and at most so many values. -/
structure Orderly (es : List (Probe K)) (k : Nat) : Prop where
  paired : Paired es
  values_le : es.countP Probe.isValue ≤ k

namespace Orderly

theorem mono (h : Orderly es k) (hk : k ≤ k') : Orderly es k' := 
  ⟨h.paired, Nat.le_trans h.values_le hk⟩

theorem append (h : Orderly es k) (h' : Orderly es' k') : Orderly (es ++ es') (k + k') := by
  refine ⟨h.paired.append h'.paired, ?_⟩
  rw [List.countP_append]
  exact Nat.add_le_add h.values_le h'.values_le

theorem nil : Orderly ([] : List (Probe K)) 0 := ⟨.nil, Nat.le_refl 0⟩

theorem value (t : K) : Orderly [.value t] 1 := ⟨.value t .nil, Nat.le_refl 1⟩

theorem slope (t : K) : Orderly [.value t, .slope t] 1 := ⟨.slope t .nil, Nat.le_refl 1⟩

theorem notice (m : Notice K) : Orderly [.notice m] 0 := ⟨.notice m .nil, Nat.le_refl 0⟩

end Orderly

/-- So many steps that ask for one value each. -/
theorem Trail.orderly {σ : Type} {R : σ → σ → List (Probe K) → Prop} {s s' : σ}
    (hr : ∀ {s s' es}, R s s' es → Orderly es 1) (h : Trail R s k s' es) : Orderly es k := by
  induction h with
  | refl => exact .nil
  | tail _ hstep ih => exact ih.append (hr hstep)

variable [Scalar K] {l : Line K} {c : Conditions K} {found : Found K} {budget : Nat}

namespace Zoom
variable {s : State K} {w : Verdict K}

theorem orderly_moves (h : Moves l c s w es) : Orderly es 1 := by
  cases h with
  | shortened ht hv hr => exact .value _
  | accepted ht hv hr hd hf => exact .slope _
  | moved ht hv hr hd hf => exact .slope _

theorem orderly_ends (h : Ends l c s budget found es) : Orderly es budget := by
  cases h with
  | accepted hk ht hm => exact ((ht.orderly orderly_moves).append (orderly_moves hm)).mono hk
  | givenUp hk he ht => exact ((ht.orderly orderly_moves).append (.notice _)).mono hk

end Zoom

namespace Wolfe

namespace Doubling
variable {s : State K} {w : Verdict K} {maxZoom : Nat}

theorem orderly_moves (h : Moves l c s w es) : Orderly es 1 := by
  cases h with
  | high hv hr => exact .value _
  | accepted hv hr hd hf => exact .slope _
  | rising hv hr hd hf hp => exact .slope _
  | descending hv hr hd hf hp => exact .slope _

/-- Zooming begins at a doubling, so their budgets are not used up both with one more. -/
theorem orderly_ends (h : Ends l c maxZoom s budget found es) :
    Orderly es (budget + maxZoom) := by
  cases h with
  | accepted hk ht hm =>
    exact ((ht.orderly orderly_moves).append (orderly_moves hm)).mono (Nat.le_add_right_of_le hk)
  | bracketed hk ht hm hz =>
    rw [← List.append_assoc]
    exact (((ht.orderly orderly_moves).append (orderly_moves hm)).append
      (Zoom.orderly_ends hz)).mono (Nat.add_le_add_right hk maxZoom)
  | exhausted ht => exact (ht.orderly orderly_moves).mono (Nat.le_add_right budget maxZoom)

end Doubling

variable {o : Options K} {r : Step K}

theorem orderly_refines {s : Step K} {d : K} (h : Refines l c s d r es) : Orderly es 1 := by
  cases h with
  | flat => exact Orderly.nil.mono (Nat.zero_le 1)
  | useless => exact Orderly.nil.mono (Nat.zero_le 1)
  | high => exact .value _
  | steeper => exact .slope _
  | taken => exact .slope _

theorem orderly_find (h : find l o = ⟨.ok (c, found), es⟩) :
    Orderly es (1 + (o.maxIter.toNat + o.maxZoom.toNat)) := by
  obtain ⟨trial, es', -, hrun, rfl⟩ := starts_of_find h
  exact (Orderly.slope (0.0 : K)).append (Doubling.orderly_ends (Doubling.ends_of_run hrun))

/-- One value at the start, one at each doubling and each trial of a zoom, and one for the secant
step. -/
theorem orderly_search (h : search l o = ⟨.ok r, es⟩) :
    Orderly es (o.maxIter.toNat + o.maxZoom.toNat + 2) := by
  obtain ⟨c, found, es₁, es₂, hf, rfl, ⟨d, -, hr⟩ | ⟨-, -, rfl⟩⟩ := find_of_search h
  · exact ((orderly_find hf).append (orderly_refines hr)).mono (by omega)
  · exact ((orderly_find hf).append .nil).mono (by omega)

/-- The search reports its probes, and they keep within its budgets. -/
theorem spends_of_search (h : search l o = ⟨.ok r, es⟩) :
    r.nfev = es.countP Probe.isValue ∧ r.njev = es.countP Probe.isSlope ∧
      r.nfev ≤ o.maxIter.toNat + o.maxZoom.toNat + 2 ∧ r.njev ≤ r.nfev := by
  have hcount := counted_search h
  have horder := orderly_search h
  have hvalues : r.nfev = es.countP Probe.isValue := by rw [hcount.values, Nat.zero_add]
  have hslopes : r.njev = es.countP Probe.isSlope := by rw [hcount.slopes, Nat.zero_add]
  refine ⟨hvalues, hslopes, ?_, ?_⟩
  · rw [hvalues]
    exact horder.values_le
  · rw [hvalues, hslopes]
    exact horder.paired.slopes_le_values

end Wolfe

namespace Bracket
variable {s s' : Bracket K} {growLimit : K} {count nfev : Nat} {o : Options K}

/-- An expansion takes one value or two. -/
theorem count_of_moves {w : Verdict K} (h : Moves l growLimit s w count es) :
    1 ≤ count ∧ count ≤ 2 := by
  cases h <;> exact ⟨by decide, by decide⟩

theorem count_of_run (h : run l o budget s nfev = ⟨.ok (s', count), es⟩) :
    nfev ≤ count ∧ count ≤ nfev + 2 * budget := by
  induction budget generalizing s nfev es with
  | zero => cases h
  | succ budget ih =>
    rw [run] at h
    split at h
    · obtain ⟨⟨⟩, -⟩ := Traced.pure_eq_ok.mp h
      exact ⟨Nat.le_refl _, Nat.le_add_right _ _⟩
    · rw [Traced.bind_eq_ok] at h
      obtain ⟨⟨w, k⟩, es₁, es₂, hw, h, -⟩ := h
      obtain ⟨-, hk⟩ := count_of_moves (moves_of_expand hw)
      cases w with
      | found t =>
        obtain ⟨⟨⟩, -⟩ := Traced.pure_eq_ok.mp h
        omega
      | next t =>
        obtain ⟨hle, hle'⟩ := ih h
        omega

theorem count_of_search {a b : K} (h : search l a b o = ⟨.ok (s, count), es⟩) :
    3 ≤ count ∧ count ≤ 3 + 2 * o.maxIter.toNat := by
  obtain ⟨s₀, es₁, es₂, -, hr, -⟩ := initial_of_search h
  exact count_of_run hr

/-- Of the line, only values are asked for, whether a bracket is found or not. -/
theorem emits_expand {P : Probe K → Prop} (hv : ∀ t, P (.value t)) (growLimit : K)
    (s : Bracket K) : (expand l growLimit s).Emits P := by
  have hlast : ∀ {α : Type} (t : K) (f : K → α), (do return f (← l.valueAt t)).Emits P := by
    intro α t f
    exact Traced.emits_bind (l.emits_valueAt (hv t)) fun v => Traced.emits_pure _
  unfold expand
  apply Traced.emits_lift_bind
  intro u
  dsimp only
  split
  · apply Traced.emits_bind (l.emits_valueAt (hv u))
    intro fu
    split
    · exact Traced.emits_pure _
    · split
      · exact Traced.emits_pure _
      · exact hlast _ _
  · split
    · apply Traced.emits_bind (l.emits_valueAt (hv u))
      intro fu
      split
      · exact hlast _ _
      · exact Traced.emits_pure _
    · split
      · exact hlast _ _
      · exact hlast _ _

theorem emits_run {P : Probe K → Prop} (hv : ∀ t, P (.value t)) (budget : Nat) (s : Bracket K)
    (nfev : Nat) : (run l o budget s nfev).Emits P := by
  induction budget generalizing s nfev with
  | zero => exact Traced.emits_fail _
  | succ budget ih =>
    rw [run]
    split
    · exact Traced.emits_pure _
    · apply Traced.emits_bind (emits_expand hv o.growLimit s)
      rintro ⟨w, k⟩
      cases w with
      | found s' => exact Traced.emits_pure _
      | next s' => exact ih s' (nfev + k)

theorem emits_search {P : Probe K → Prop} (hv : ∀ t, P (.value t)) (a b : K) :
    (search l a b o).Emits P := by
  unfold search
  apply Traced.emits_bind
  · apply Traced.emits_bind (l.emits_valueAt (hv a))
    intro fa
    apply Traced.emits_bind (l.emits_valueAt (hv b))
    intro fb
    exact Traced.emits_bind (l.emits_valueAt (hv _)) fun fc => Traced.emits_pure _
  · intro s
    exact emits_run hv _ s 3

end Bracket

namespace Brent
variable {s : State K} {o : Options K} {r : Step K} {nfev : Nat}

theorem counts_of_ends (h : Ends l o s budget nfev r es) :
    r.nfev ≤ nfev + budget ∧ r.njev = 0 := by
  cases h with
  | converged hk ht hc => exact ⟨Nat.add_le_add_left (Nat.le_of_lt hk) nfev, rfl⟩
  | missed ht => exact ⟨Nat.le_refl _, rfl⟩

variable {P : Probe K → Prop} (hv : ∀ t, P (.value t))
  (hn : P (.notice (.toleranceMissed o.maxIter)))
include hv hn

theorem emits_run (s : State K) (nfev : Nat) : (run l o budget s nfev).Emits P := by
  induction budget generalizing s nfev with
  | zero =>
    unfold run
    refine Traced.emits_bind ⟨?_⟩ fun _ => Traced.emits_pure _
    intro e he
    rwa [List.mem_singleton.mp he]
  | succ budget ih =>
    rw [run]
    split
    · exact Traced.emits_pure _
    · apply Traced.emits_bind
      · apply Traced.emits_lift_bind
        intro t
        exact Traced.emits_bind (l.emits_valueAt (hv _)) fun v => Traced.emits_pure _
      · intro s'
        exact ih s' (nfev + 1)

/-- Without derivatives: a search asks for values and may report that it has missed its
tolerance, and that is all. -/
theorem emits_bracketAndSearch : (bracketAndSearch l o).Emits P := by
  unfold bracketAndSearch
  apply Traced.emits_bind (Bracket.emits_search hv 0.0 1.0)
  rintro ⟨s, nfev⟩
  exact Traced.emits_bind (emits_run hv hn _ 0) fun found => Traced.emits_pure _

end Brent
end Descent
