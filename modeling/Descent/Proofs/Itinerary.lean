import Mathlib
import Descent.Proofs.Accounting
import Descent.Proofs.Agreement

/-! The history of a run lists the points of the run: where it begins and where its searches end. -/
namespace Descent
variable {K : Type} [Scalar K] {n : ℕ}

namespace Optimizer
variable {o : Optimizer K n} {debug : Bool} {x₀ : Vector K n} {r₀ r : Run K n} {k : ℕ}

/-- The points of the record are points of the run, by their numbers. -/
def Recalls (o : Optimizer K n) (debug : Bool) (x₀ : Vector K n) (r : Run K n) : Prop :=
  ∀ h, r.history = some h → h.iterates.size = h.size ∧
    ∀ j y, h.iterates[j]? = some y → o.Visits debug x₀ j y

theorem recalls_begin (hb : o.Begins x₀ r₀) : o.Recalls debug x₀ r₀ := by
  have hvisits : o.Visits debug x₀ 0 x₀ := .start hb
  cases hb with
  | intro hf hg =>
    intro h hh
    unfold begin at hh
    dsimp only at hh
    split at hh
    · cases hh
      refine ⟨rfl, ?_⟩
      intro j y hj
      cases j with
      | zero =>
        cases hj
        exact hvisits
      | succ j => simp [History.push, History.empty] at hj
    · cases hh

section
variable (hb : o.Begins x₀ r₀) (ht : o.setup.settings.history = true)
include hb ht

/-- In iteration `k` the record has the points before it and that where it begins. -/
theorem size_of_reaches (hr : o.Reaches debug x₀ k r) {h : History K n}
    (hh : r.history = some h) : h.size = k + 1 := by
  obtain ⟨h₀, h0, hone⟩ := record_of_begins hb ht
  obtain ⟨steps, hlists, haccounts⟩ := reaches_accounts hb hr
  obtain ⟨h', hh', hsize⟩ := haccounts.history h0
  rw [hh, Option.some.injEq] at hh'
  rw [hh', hsize, hone, hlists.length, Nat.add_comm]

/-- A search adds the point that it moves to, and this has the next number. -/
theorem recalls_moved {step : Step K} (hr : o.Reaches debug x₀ k r) (hI : o.Recalls debug x₀ r)
    (hs : r.Searches o.setup step) : o.Recalls debug x₀ (r.moved o.setup step) := by
  intro h hh
  obtain ⟨h', hh', rfl⟩ := Option.map_eq_some_iff.mp hh
  obtain ⟨hsize, hvisits⟩ := hI h' hh'
  have hk := size_of_reaches hb ht hr hh'
  refine ⟨?_, ?_⟩
  · simpa [History.push, History.size] using hsize
  · intro j y hj
    simp only [History.push, Array.getElem?_push] at hj
    split at hj
    · rename_i hlast
      cases hj
      rw [hlast, hsize, hk]
      exact .moved hr hs
    · exact hvisits j y hj

theorem finish_recalls (debug : Bool) : o.Recalls debug x₀ (o.finish debug r₀).run := by
  apply finish_keeps hb (recalls_begin hb)
  · intro r r' ha hI
    unfold Recalls
    rw [ha.history]
    exact hI
  · intro k r step hr hI hs
    exact recalls_moved hb ht hr hI hs

/-- The record of a run that ends without a fault lists the points of the run. -/
theorem getElem?_iterates_iff (hx : ∀ e, (o.finish debug r₀).exit ≠ .failed e) {h : History K n}
    (hh : (o.finish debug r₀).run.history = some h) (k : ℕ) (y : Vector K n) :
    h.iterates[k]? = some y ↔ o.Visits debug x₀ k y := by
  obtain ⟨hsize, hvisits⟩ := finish_recalls hb ht debug h hh
  refine ⟨hvisits k y, ?_⟩
  intro hv
  obtain ⟨h₀, h0, hone⟩ := record_of_begins hb ht
  obtain ⟨status, steps, -, hsteps, -, haccounts⟩ := finish_accounts hb hx
  obtain ⟨h', hh', hlength⟩ := haccounts.history h0
  rw [hh, Option.some.injEq] at hh'
  subst hh'
  -- each search has added a point, so no number of a point is beyond the record
  have hk : k < h.iterates.size := by
    rw [hsize, hlength, hone]
    cases hv with
    | start => omega
    | moved hr hs =>
      obtain ⟨hlt, -⟩ := List.getElem?_eq_some_iff.mp ((hsteps _ _).mpr ⟨_, _, _, hr, hs, rfl, rfl⟩)
      omega
  rw [visits_unique hv (hvisits k _ (Array.getElem?_eq_getElem hk)), Array.getElem?_eq_getElem hk]

end

theorem finish_unrecorded (hb : o.Begins x₀ r₀) (ht : o.setup.settings.history = false)
    (debug : Bool) : (o.finish debug r₀).run.history = none := by
  refine finish_keeps (I := fun r => r.history = none) hb ?_ ?_ ?_
  · cases hb
    rw [begin, ht]
    rfl
  · intro r r' ha hr
    exact ha.history.trans hr
  · intro k r step _ hr _
    rw [Run.moved, hr]
    rfl

/-- If the history is on, it lists the points of the run from the first to the last. -/
theorem points_of_finish
    (hs : (∃ w, o.memory.search.strategy = .wolfe w) ∨ ∃ b, o.memory.search.strategy = .brent b)
    (hb : o.Begins x₀ r₀) (hx : ∀ e, (o.finish debug r₀).exit ≠ .failed e)
    (ht : o.setup.settings.history = true) :
    ∃ h, (o.finish debug r₀).run.history = some h ∧ h.iterates.toList.head? = some x₀ ∧
      h.iterates.toList.getLast? = some (o.finish debug r₀).run.x ∧
      ∀ k y, h.iterates.toList[k]? = some y ↔ o.Visits debug x₀ k y := by
  obtain ⟨h, hh, hc⟩ :=
    (finish_agrees debug hb (Strategy.reports_of_standard hs _ _)).history ht
  refine ⟨h, hh, ?_, ?_, ?_⟩
  · rw [List.head?_eq_getElem?, Array.getElem?_toList]
    exact hc.first
  · rw [List.getLast?_eq_getElem?, Array.getElem?_toList, Array.length_toList]
    exact hc.last
  · intro k y
    rw [Array.getElem?_toList]
    exact getElem?_iterates_iff hb ht hx hh k y

end Optimizer
end Descent
