import Descent.Proofs.GradientCheck
import Descent.Proofs.Run.Record
import Descent.Proofs.Search.Counting

/-! Every part of a run counts the values and the gradients that it calls for; a part that fails may
count fewer. -/
namespace Descent
variable {K : Type} {n : Nat}

namespace Event

def isValue : Event K n → Bool
  | value _ => true
  | gradient _ => false
  | notice _ => false

def isGradient : Event K n → Bool
  | value _ => false
  | gradient _ => true
  | notice _ => false

end Event

section
variable (x : Vector K n) (m : Notice K) (es : List (Event K n))

/-- A run begins with one value and one gradient. -/
theorem countP_isValue_start :
    (Event.value x :: .gradient x :: .notice m :: es).countP Event.isValue =
      1 + es.countP Event.isValue := by
  rw [List.countP_cons_of_pos rfl, List.countP_cons_of_neg Bool.false_ne_true,
    List.countP_cons_of_neg Bool.false_ne_true, Nat.add_comm]

theorem countP_isGradient_start :
    (Event.value x :: .gradient x :: .notice m :: es).countP Event.isGradient =
      1 + es.countP Event.isGradient := by
  rw [List.countP_cons_of_neg Bool.false_ne_true, List.countP_cons_of_pos rfl,
    List.countP_cons_of_neg Bool.false_ne_true, Nat.add_comm]

end

section
variable [Scalar K] (x d : Vector K n) (es : List (Probe K))

theorem countP_isValue_toEvent :
    (es.map (Probe.toEvent x d)).countP Event.isValue = es.countP Probe.isValue := by
  rw [List.countP_map]
  congr 1
  funext p
  cases p <;> rfl

theorem countP_isGradient_toEvent :
    (es.map (Probe.toEvent x d)).countP Event.isGradient = es.countP Probe.isSlope := by
  rw [List.countP_map]
  congr 1
  funext p
  cases p <;> rfl

end

/-- A part of a run that begins at `r` has at most counted its calls, and exactly unless it fails. -/
structure Turn.Counts (r : Run K n) (t : Turn K n) : Prop where
  nfev_le : t.run.nfev ≤ r.nfev + t.events.countP Event.isValue
  njev_le : t.run.njev ≤ r.njev + t.events.countP Event.isGradient
  exact : (∀ e, t.exit ≠ some (.failed e)) →
    t.run.nfev = r.nfev + t.events.countP Event.isValue ∧
      t.run.njev = r.njev + t.events.countP Event.isGradient

namespace Turn
variable {r : Run K n} {t : Turn K n} {f : Run K n → Turn K n}

theorem counts_of_eq (hv : t.run.nfev = r.nfev + t.events.countP Event.isValue)
    (hg : t.run.njev = r.njev + t.events.countP Event.isGradient) : t.Counts r :=
  ⟨Nat.le_of_eq hv, Nat.le_of_eq hg, fun _ => ⟨hv, hg⟩⟩

theorem counts_andThen (h : t.Counts r) (hf : t.exit = none → (f t.run).Counts t.run) :
    (t.andThen f).Counts r := by
  cases he : t.exit with
  | some e =>
    rw [andThen_of_some he]
    exact h
  | none =>
    obtain ⟨hv, hg⟩ := h.exact (by simp [he])
    obtain ⟨hv', hg', hx⟩ := hf he
    rw [andThen_of_none he]
    refine ⟨?_, ?_, ?_⟩
    · rw [List.countP_append]
      dsimp only
      omega
    · rw [List.countP_append]
      dsimp only
      omega
    · intro hne
      obtain ⟨hv'', hg''⟩ := hx hne
      rw [List.countP_append, List.countP_append]
      dsimp only
      omega

end Turn

namespace Run
variable [Scalar K] {s : Setup K n} {v : Bool} {r r' : Run K n} {k : Nat}

omit [Scalar K] in
theorem counts_converge (r : Run K n) (status : Status) : (r.converge status).Counts r :=
  Turn.counts_of_eq rfl rfl

theorem counts_testZero (s : Setup K n) (r : Run K n) : (r.testZero s).Counts r := by
  unfold testZero
  split
  · exact counts_converge r _
  · exact Turn.counts_of_eq rfl rfl

theorem counts_descend (hs : r.search.strategy.Counts s.objective s.gradient) :
    (r.descend s).Counts r := by
  cases hf : (r.searched s).found.outcome with
  | error e =>
    rw [descend_of_error hf]
    exact ⟨Nat.le_add_right _ _, Nat.le_add_right _ _, fun h => (h e rfl).elim⟩
  | ok step =>
    obtain ⟨hv, hg⟩ := hs (Traced.eq_of_outcome hf)
    rw [descend_of_ok hf]
    apply Turn.counts_of_eq
    · change r.nfev + step.nfev = r.nfev + (List.map _ _).countP _
      rw [countP_isValue_toEvent, hv, Nat.zero_add]
    · change r.njev + step.njev = r.njev + (List.map _ _).countP _
      rw [countP_isGradient_toEvent, hg, Nat.zero_add]

theorem counts_testValue (s : Setup K n) (r : Run K n) : (r.testValue s).Counts r := by
  unfold testValue
  split
  · exact counts_converge r _
  · exact Turn.counts_of_eq rfl rfl

theorem counts_differentiate (s : Setup K n) (r : Run K n) : (r.differentiate s).Counts r := by
  cases hg : s.vectorGradient r.x with
  | error e =>
    rw [differentiate_of_error hg]
    exact ⟨Nat.le_add_right _ _, Nat.le_add_right _ _, fun h => (h e rfl).elim⟩
  | ok u =>
    rw [differentiate_of_ok hg]
    exact Turn.counts_of_eq rfl rfl

theorem counts_checked (s : Setup K n) (v : Bool) (r : Run K n) : (r.checked s v).Counts r := by
  have hvalues : ∀ xs : List (Vector K n),
      (xs.map Event.value).countP Event.isValue = xs.length := by
    intro xs
    rw [List.countP_map]
    exact List.countP_eq_length.mpr fun _ _ => rfl
  have hgradients : ∀ xs : List (Vector K n),
      (xs.map Event.value).countP Event.isGradient = 0 := by
    intro xs
    rw [List.countP_map]
    exact List.countP_eq_zero.mpr fun _ _ => by simp [Event.isGradient]
  unfold checked
  split
  · unfold verify
    dsimp only
    split
    · rename_i e _
      exact ⟨Nat.le_add_right _ _, Nat.le_add_right _ _, fun h => (h e rfl).elim⟩
    · apply Turn.counts_of_eq
      · change r.nfev + _ = r.nfev + _
        rw [proceed, hvalues, GradientCheck.evals_run]
      · change r.njev = r.njev + _
        rw [proceed, hgradients, Nat.add_zero]
  · exact Turn.counts_of_eq rfl rfl

theorem counts_testGradient (s : Setup K n) (r : Run K n) : (r.testGradient s).Counts r := by
  cases ht : r.slopeTest with
  | error e =>
    rw [testGradient_of_error ht]
    exact Turn.counts_of_eq rfl rfl
  | ok test =>
    unfold slopeTest at ht
    simp only [testGradient, ht]
    apply Turn.counts_andThen (Turn.counts_of_eq rfl rfl)
    intro _
    dsimp only [proceed]
    split
    · exact counts_converge r _
    · exact Turn.counts_of_eq rfl rfl

theorem counts_redirect (s : Setup K n) (r : Run K n) : (r.redirect s).Counts r := by
  cases hw : quotient (r.weight s.settings.method) r.squaredNorm with
  | error e =>
    rw [redirect_of_error hw]
    exact Turn.counts_of_eq rfl rfl
  | ok gamma =>
    simp only [redirect, hw]
    split
    · exact Turn.counts_of_eq rfl rfl
    · exact Turn.counts_of_eq rfl rfl

section
variable (hs : r.search.strategy.Counts s.objective s.gradient)
include hs

theorem counts_tested (v : Bool) : (r.tested s v).Counts r := by
  unfold tested
  apply Turn.counts_andThen (counts_testZero s r)
  intro _
  apply Turn.counts_andThen
  · rw [testZero_run]
    exact counts_descend hs
  intro _
  apply Turn.counts_andThen (counts_testValue s _)
  intro _
  apply Turn.counts_andThen (counts_differentiate s _)
  intro _
  apply Turn.counts_andThen (counts_checked s v _)
  intro _
  exact counts_testGradient s _

theorem counts_iterate (v : Bool) (k : Nat) : (iterate s v k r).Counts r := by
  have h := counts_tested (r := { r with nit := k }) hs v
  rw [iterate_eq]
  exact Turn.counts_andThen ⟨h.nfev_le, h.njev_le, h.exact⟩ fun _ => counts_redirect s _

theorem counts_loop (v : Bool) (budget k : Nat) : (loop s v r budget k).toTurn.Counts r := by
  induction budget generalizing r k with
  | zero => exact Turn.counts_of_eq rfl rfl
  | succ budget ih =>
    rw [loop_succ]
    apply Turn.counts_andThen (counts_iterate hs v k)
    intro _
    apply ih
    rw [strategy_iterate]
    exact hs

end

end Run
end Descent
