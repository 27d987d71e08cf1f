/-!
Decimal digits of a positive rational: its digits rounded to a given count, and the fewest digits
that fall into an interval around it. All arithmetic is exact.
-/
namespace Descent.Decimal

/-- A positive fraction `num / den`, or a point of the same scale. -/
structure Ratio where
  num : Nat
  den : Nat

/-- The value `m * b ^ e`. -/
def Ratio.ofPower (m b : Nat) (e : Int) : Ratio := ⟨m * Nat.pow b e.toNat, Nat.pow b (-e).toNat⟩

def Ratio.le (a b : Ratio) : Bool := a.num * b.den ≤ b.num * a.den

def Ratio.lt (a b : Ratio) : Bool := a.num * b.den < b.num * a.den

/-- Significant digits, the first of them at the place `10 ^ exponent`. -/
structure Digits where
  digits : List Char
  exponent : Int

/-- The number of decimal digits; none for zero. -/
def count (n : Nat) : Nat := if n = 0 then 0 else (Nat.toDigits 10 n).length

/-- The exponent `e` with `10 ^ e ≤ r < 10 ^ (e + 1)`, for a positive `r`. -/
def magnitude (r : Ratio) : Int :=
  if r.den ≤ r.num then count (r.num / r.den) - 1
  else -(count ((r.den + r.num - 1) / r.num - 1) : Int)

/-- The digits of `c * 10 ^ place`, without the zeros at the end. -/
def Digits.ofScaled (c : Nat) (place : Int) : Digits :=
  let ds := Nat.toDigits 10 c
  ⟨(ds.reverse.dropWhile (· == '0')).reverse, place + ds.length - 1⟩

/-- The quotient `r / 10 ^ place` as a fraction. -/
def Ratio.shift (r : Ratio) (place : Int) : Ratio :=
  ⟨r.num * Nat.pow 10 (-place).toNat, r.den * Nat.pow 10 place.toNat⟩

/-- The nearest whole number; a half goes to the even neighbour. -/
def Ratio.nearest (r : Ratio) : Nat :=
  let c := r.num / r.den
  let rest := 2 * (r.num % r.den)
  if rest > r.den || (rest == r.den && c % 2 == 1) then c + 1 else c

/-- It is at most a half away. -/
theorem Ratio.nearest_close (r : Ratio) (h : 0 < r.den) :
    2 * (r.nearest * r.den) ≤ 2 * r.num + r.den ∧
      2 * r.num ≤ 2 * (r.nearest * r.den) + r.den := by
  have hd := Nat.div_add_mod' r.num r.den
  have hm := Nat.mod_lt r.num h
  unfold nearest
  simp only [Bool.or_eq_true, Bool.and_eq_true, decide_eq_true_eq, beq_iff_eq]
  split
  · rw [Nat.add_mul]
    omega
  · omega

/-- The nearest value of `n` digits. -/
def rounded (n : Nat) (r : Ratio) : Digits :=
  let place := magnitude r + 1 - n
  .ofScaled (r.shift place).nearest place

/-- The values that round to the same floating-point number. -/
structure Interval where
  lo : Ratio
  hi : Ratio
  closed : Bool

def Interval.contains (i : Interval) (r : Ratio) : Bool :=
  if i.closed then i.lo.le r && r.le i.hi else i.lo.lt r && r.lt i.hi

/-- The neighbour of `r` on the grid of `n` digits that lies in the interval, the nearer if both
do, the even one if they are equally near. -/
def neighbour? (n : Nat) (r : Ratio) (i : Interval) : Option Digits :=
  let place := magnitude r + 1 - n
  let s := r.shift place
  let c := s.num / s.den
  let inside (k : Nat) := i.contains (.ofPower k 10 place)
  let rest := 2 * (s.num % s.den)
  let lower := rest < s.den || (rest == s.den && c % 2 == 0)
  ((if lower then [c, c + 1] else [c + 1, c]).find? inside).map (.ofScaled · place)

/-- The fewest digits that lie in the interval around `r`; seventeen are always enough for a
double. -/
def shortest (r : Ratio) (i : Interval) : Digits :=
  ((List.range 17).findSome? fun n => neighbour? (n + 1) r i).getD (rounded 17 r)

end Descent.Decimal
