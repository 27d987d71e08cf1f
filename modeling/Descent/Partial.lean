import Descent.Scalar

/-! An arithmetic with an undefined number beside the others. -/
namespace Descent

/-- A number, or an undefined one that keeps a sign. -/
inductive Partial (K : Type) where
  | number (x : K)
  | undefined (negative : Bool)
deriving DecidableEq

namespace Partial
variable {K : Type} [Scalar K]

def map (op : K → K) : Partial K → Partial K
  | number x => number (op x)
  | undefined negative => undefined negative

/-- The result of an operation. An undefined operand is passed on, the first one if both are. -/
def combine (op : K → K → K) : Partial K → Partial K → Partial K
  | number x, number y => number (op x y)
  | number _, undefined negative => undefined negative
  | undefined negative, _ => undefined negative

/-- A comparison. It is false of undefined numbers. -/
def compare (test : K → K → Bool) : Partial K → Partial K → Bool
  | number x, number y => test x y
  | _, _ => false

def neg : Partial K → Partial K
  | number x => number (-x)
  | undefined negative => undefined !negative

def abs : Partial K → Partial K
  | number x => number (Scalar.abs x)
  | undefined _ => undefined false

/-- The sign of an undefined number is one, too. -/
def copySign : Partial K → Partial K → Partial K
  | number m, number s => number (Scalar.copySign m s)
  | number m, undefined negative => number (if negative then -Scalar.abs m else Scalar.abs m)
  | undefined _, number s => undefined (decide (s < 0.0))
  | undefined _, undefined negative => undefined negative

def isFinite : Partial K → Bool
  | number x => Scalar.isFinite x
  | undefined _ => false

instance : Scalar (Partial K) where
  add := combine (· + ·)
  sub := combine (· - ·)
  mul := combine (· * ·)
  div := combine (· / ·)
  neg := neg
  lt a b := compare (fun x y => decide (x < y)) a b = true
  le a b := compare (fun x y => decide (x ≤ y)) a b = true
  beq := compare (· == ·)
  ofScientific m s e := number (OfScientific.ofScientific m s e)
  abs := abs
  sqrt := map Scalar.sqrt
  copySign := copySign
  isFinite := isFinite
  decLt _ _ := inferInstanceAs (Decidable (_ = true))
  decLe _ _ := inferInstanceAs (Decidable (_ = true))

variable {a b : Partial K} {x y : K}

@[simp] theorem number_add : number x + number y = number (x + y) := rfl

@[simp] theorem number_sub : number x - number y = number (x - y) := rfl

@[simp] theorem number_mul : number x * number y = number (x * y) := rfl

@[simp] theorem decimal (m : Nat) (s : Bool) (e : Nat) :
    (OfScientific.ofScientific m s e : Partial K) = number (OfScientific.ofScientific m s e) := rfl

@[simp] theorem abs_number : Scalar.abs (number x) = number (Scalar.abs x) := rfl

theorem lt_iff : a < b ↔ ∃ x y, a = number x ∧ b = number y ∧ x < y := by
  change compare _ a b = true ↔ _
  cases a <;> cases b <;> simp [compare]

theorem le_iff : a ≤ b ↔ ∃ x y, a = number x ∧ b = number y ∧ x ≤ y := by
  change compare _ a b = true ↔ _
  cases a <;> cases b <;> simp [compare]

@[simp] theorem number_lt : number x < number y ↔ x < y := by
  simp [lt_iff]

@[simp] theorem number_le : number x ≤ number y ↔ x ≤ y := by
  simp [le_iff]

def IsNumber (a : Partial K) : Prop := ∃ x, a = number x

omit [Scalar K] in
theorem isNumber_combine {op : K → K → K} : (combine op a b).IsNumber ↔ a.IsNumber ∧ b.IsNumber := by
  cases a <;> cases b <;> simp [combine, IsNumber]

theorem isNumber_add : (a + b).IsNumber ↔ a.IsNumber ∧ b.IsNumber := isNumber_combine

theorem isNumber_sub : (a - b).IsNumber ↔ a.IsNumber ∧ b.IsNumber := isNumber_combine

theorem isNumber_mul : (a * b).IsNumber ↔ a.IsNumber ∧ b.IsNumber := isNumber_combine

theorem isNumber_abs : (Scalar.abs a).IsNumber ↔ a.IsNumber := by
  cases a <;> simp [Scalar.abs, abs, IsNumber]

/-- Only the magnitude has to be a number. -/
theorem isNumber_copySign (h : a.IsNumber) : (Scalar.copySign a b).IsNumber := by
  obtain ⟨x, rfl⟩ := h
  cases b <;> exact ⟨_, rfl⟩

theorem isNumber_of_isFinite (h : Scalar.isFinite a = true) : a.IsNumber := by
  cases a with
  | number x => exact ⟨x, rfl⟩
  | undefined _ => cases h

theorem isNumber_of_lt (h : a < b) : a.IsNumber ∧ b.IsNumber := by
  obtain ⟨x, y, rfl, rfl, -⟩ := lt_iff.mp h
  exact ⟨⟨x, rfl⟩, ⟨y, rfl⟩⟩

theorem isNumber_of_le (h : a ≤ b) : a.IsNumber ∧ b.IsNumber := by
  obtain ⟨x, y, rfl, rfl, -⟩ := le_iff.mp h
  exact ⟨⟨x, rfl⟩, ⟨y, rfl⟩⟩

theorem smaller_number : smaller (number x) (number y) = number (smaller x y) := by
  simp only [smaller, number_lt]
  split <;> rfl

theorem larger_number : larger (number x) (number y) = number (larger x y) := by
  simp only [larger, GT.gt, number_lt]
  split <;> rfl

end Partial

variable {K : Type} {n : Nat}

def numbers (x : Vector K n) : Vector (Partial K) n := x.map .number

theorem along_numbers [Scalar K] (x d : Vector K n) (t : K) :
    along (numbers x) (numbers d) (.number t) = numbers (along x d t) := by
  ext i hi
  simp [along, numbers, scale]

end Descent
