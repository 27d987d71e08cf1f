import Descent.Partial
import Descent.Proofs.Search.Bracket
import Descent.Proofs.Search.Brent

/-! With undefined numbers about, the search without derivatives tries numbers only, and the best
value it has is a number from the bracket on. -/
namespace Descent
open Partial
variable {K : Type} {l : Line (Partial K)} {es : List (Probe (Partial K))}

/-- No value that was tried is undefined. -/
def Defined (l : Line (Partial K)) (es : List (Probe (Partial K))) : Prop :=
  ∀ t y, .value t ∈ es → l.value t = .ok y → y.IsNumber

theorem Defined.left {es es' : List (Probe (Partial K))} (h : Defined l (es ++ es')) :
    Defined l es := fun t y ht => h t y (List.mem_append_left es' ht)

theorem Defined.right {es es' : List (Probe (Partial K))} (h : Defined l (es ++ es')) :
    Defined l es' := fun t y ht => h t y (List.mem_append_right es ht)

theorem exists_undefined (h : ¬ Defined l es) :
    ∃ t negative, .value t ∈ es ∧ l.value t = .ok (undefined negative) := by
  apply Classical.byContradiction
  intro hn
  apply h
  intro t y ht hy
  cases y with
  | number x => exact ⟨x, rfl⟩
  | undefined negative => exact (hn ⟨t, negative, ht, hy⟩).elim

variable [Scalar K]

theorem isNumber_golden : (golden : Partial K).IsNumber := ⟨golden, rfl⟩

namespace Bracket
variable {s s' : Bracket (Partial K)} {o : Options (Partial K)} {growLimit a b : Partial K}
  {count : Nat}

/-- All three points are numbers. -/
structure Placed (s : Bracket (Partial K)) : Prop where
  a : s.a.IsNumber
  b : s.b.IsNumber
  c : s.c.IsNumber

/-- A point that passes a test against others is a number. -/
theorem isNumber_of_mul_lt {x y z u : Partial K} (h : z < (x - u) * (u - y)) : u.IsNumber :=
  (isNumber_sub.mp (isNumber_mul.mp (isNumber_of_lt h).2).1).2

theorem Placed.onward (h : s.Placed) : (s.c + golden * (s.c - s.b)).IsNumber :=
  isNumber_add.mpr ⟨h.c, isNumber_mul.mpr ⟨isNumber_golden, isNumber_sub.mpr ⟨h.c, h.b⟩⟩⟩

theorem placed_next (hg : growLimit.IsNumber) (hs : s.Placed)
    (h : Moves l growLimit s (.next s') count es) : s'.Placed := by
  cases h with
  | insideUseless hu hi hv hl hh hw => exact ⟨hs.b, hs.c, hs.onward⟩
  | outsideLower hu hi ho hv hl hw =>
    have hn := isNumber_of_mul_lt ho
    exact ⟨hs.c, hn, isNumber_add.mpr
      ⟨hn, isNumber_mul.mpr ⟨isNumber_golden, isNumber_sub.mpr ⟨hn, hs.c⟩⟩⟩⟩
  | outsideHigher hu hi ho hv hl => exact ⟨hs.b, hs.c, isNumber_of_mul_lt ho⟩
  | farthest hu hi ho hf hv =>
    exact ⟨hs.b, hs.c, isNumber_add.mpr
      ⟨hs.b, isNumber_mul.mpr ⟨hg, isNumber_sub.mpr ⟨hs.c, hs.b⟩⟩⟩⟩
  | back hu hi ho hf hw => exact ⟨hs.b, hs.c, hs.onward⟩

/-- The middle of a bracket has passed a comparison. -/
theorem placed_found (hs : s.Placed) (h : Moves l growLimit s (.found s') count es) :
    s'.Placed ∧ s'.fb.IsNumber := by
  cases h with
  | insideLower hu hi hv hl => exact ⟨⟨hs.b, isNumber_of_mul_lt hi, hs.c⟩, (isNumber_of_lt hl).1⟩
  | insideHigher hu hi hv hl hh =>
    exact ⟨⟨hs.a, hs.b, isNumber_of_mul_lt hi⟩, (isNumber_of_lt hh).1⟩

theorem placed_initial (ha : a.IsNumber) (hb : b.IsNumber) (h : initial l a b = ⟨.ok s, es⟩) :
    s.Placed := by
  obtain ⟨-, fa, fb, -, -, hc, hm⟩ := initial_eq_ok h
  obtain ⟨hsa, hsb⟩ : s.a.IsNumber ∧ s.b.IsNumber := by
    rcases hm with ⟨-, hsa, hsb, -⟩ | ⟨-, hsa, hsb, -⟩
    · rw [hsa, hsb]
      exact ⟨hb, ha⟩
    · rw [hsa, hsb]
      exact ⟨ha, hb⟩
  refine ⟨hsa, hsb, ?_⟩
  rw [hc]
  exact isNumber_add.mpr ⟨hsb, isNumber_mul.mpr ⟨isNumber_golden, isNumber_sub.mpr ⟨hsb, hsa⟩⟩⟩

theorem placed_of_search (hg : o.growLimit.IsNumber) (ha : a.IsNumber) (hb : b.IsNumber)
    (h : search l a b o = ⟨.ok (s, count), es⟩) : s.Placed ∧ s.fb.IsNumber := by
  obtain ⟨s₀, es₁, es₂, hi, hr, -⟩ := initial_of_search h
  exact run_keeps (P := fun s => s.Placed ∧ s.fb.IsNumber)
    (fun hs hle => ⟨hs, (isNumber_of_le hle).1⟩) (fun hs _ => placed_found hs)
    (fun hs _ => placed_next hg hs) (placed_initial ha hb hi) hr

end Bracket

namespace Brent
variable {s s' : State (Partial K)} {o : Options (Partial K)} {tol : Partial K}
  {r : Step (Partial K)}

theorem isNumber_least (ht : tol.IsNumber) (hs : s.x.IsNumber) : (s.least tol).IsNumber :=
  isNumber_add.mpr ⟨isNumber_mul.mpr ⟨ht, isNumber_abs.mpr hs⟩, leastStep, rfl⟩

/-- An undefined step is replaced by the shortest one. -/
theorem isNumber_trial (ht : tol.IsNumber) (hs : s.x.IsNumber) : (s.trial tol).IsNumber := by
  unfold State.trial
  dsimp only
  split
  · rename_i hd
    exact isNumber_add.mpr ⟨hs, isNumber_abs.mp (isNumber_of_le hd).2⟩
  · exact isNumber_add.mpr ⟨hs, isNumber_copySign (isNumber_least ht hs)⟩

theorem isNumber_step (ht : tol.IsNumber) (hs : s.x.IsNumber) (h : step l tol s = ⟨.ok s', es⟩) :
    s'.x.IsNumber := by
  obtain ⟨t, fu, hp, -, rfl, -⟩ := update_of_step h
  obtain ⟨d, e, rfl⟩ := eq_of_propose hp
  obtain ⟨hx, -⟩ | ⟨hx, -⟩ := best_update (s := { s with d, e }) _ fu
  · rw [hx]
    exact isNumber_trial (s := { s with d, e }) ht hs
  · rw [hx]
    exact hs

theorem isNumber_of_search {a b c fb : Partial K} (ht : o.tol.IsNumber) (hb : b.IsNumber)
    (h : search l a b c fb o = ⟨.ok r, es⟩) : r.step.IsNumber := by
  obtain ⟨t, hx, hr⟩ := run_keeps (I := fun s => s.x.IsNumber)
    (fun hs _ hm => isNumber_step ht hs hm) (s := .initial a b c fb) hb h
  rw [hr]
  exact hx

end Brent
end Descent
