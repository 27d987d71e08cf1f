import Descent.Decimal.Digits

/-! Natural numbers rounded to so many binary digits. -/
namespace Descent.Binary

/-- Takes `places` binary digits off the end, to the nearest; a half goes to the even neighbour. -/
def shorten (places m : Nat) : Nat := Decimal.Ratio.nearest ⟨m, Nat.pow 2 places⟩

/-- How many binary digits `m` has beyond the first `digits`. -/
def excess (digits m : Nat) : Nat := m.log2 + 1 - digits

/-- The nearest number with no more than `digits` binary digits before its zeros. -/
def leading (digits m : Nat) : Nat :=
  shorten (excess digits m) m * Nat.pow 2 (excess digits m)

theorem shorten_zero (m : Nat) : shorten 0 m = m := by
  simp [shorten, Decimal.Ratio.nearest, Nat.mod_one]

/-- A number that fits is left as it is. -/
theorem leading_of_lt {digits m : Nat} (h : m < Nat.pow 2 digits) : leading digits m = m := by
  have h0 : excess digits m = 0 ∨ m = 0 := by
    by_cases hm : m = 0
    · exact .inr hm
    · have := (Nat.log2_lt hm).mpr h
      exact .inl (by unfold excess; omega)
  rcases h0 with h0 | h0
  · simp [leading, h0, shorten_zero]
  · simp [leading, h0, shorten, Decimal.Ratio.nearest]

/-- The double nearest to a number, if there is one that large. -/
def nearestDouble? (m : Nat) : Option Nat :=
  let d := leading 53 m
  if d < Nat.pow 2 1024 then some d else none

end Descent.Binary
