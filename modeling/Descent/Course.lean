import Descent.Line

/-! Points and directions of two lengths, one of which may be a single number. -/
namespace Descent
variable {K : Type}

/-- A list as a vector of that length: a single entry is repeated. -/
def stretch? (n : Nat) (xs : List K) : Option (Vector K n) :=
  if h : xs.length = n then some ⟨xs.toArray, by simp [h]⟩
  else match xs with
    | [a] => some (Vector.replicate n a)
    | _ => none

theorem stretch?_toList {n : Nat} (v : Vector K n) : stretch? n v.toList = some v := by
  simp [stretch?, Vector.toList]

/-- A point and a direction of one length. -/
structure Course (K : Type) where
  dim : Nat
  point : Vector K dim
  direction : Vector K dim
  /-- The direction as it was given. -/
  given : List K

namespace Course

/-- A point and a direction brought to that length, if they can be. -/
def ofLength (n : Nat) (x d : List K) : Except (Fault K) (Course K) :=
  match stretch? n x, stretch? n d with
  | some x, some d' => .ok ⟨n, x, d', d⟩
  | _, _ => .error (.lengthsDiffer x.length d.length)

/-- Where a point and a direction are of two lengths, one of them must be one. -/
def ofLists (x d : List K) : Except (Fault K) (Course K) :=
  ofLength (if x.length = 1 then d.length else x.length) x d

/-- The line of a course. Its slopes are taken along the direction as it was given. -/
def line [Scalar K] (c : Course K) (f : Objective K c.dim) (g : Gradient K c.dim) : Line K :=
  .ofFunctions f g c.point c.direction c.given.toArray.toVector

/-- A point and a direction of one length are left as they are. -/
theorem ofLists_toList {n : Nat} (x d : Vector K n) :
    ofLists x.toList d.toList = .ok ⟨n, x, d, d.toList⟩ := by
  have hn : (if x.toList.length = 1 then d.toList.length else x.toList.length) = n := by simp
  rw [ofLists, hn, ofLength]
  simp only [stretch?_toList]

end Course
end Descent
