/-! Arrays of any shape: what a user may hand in where a vector is expected. -/
namespace Descent

/-- The lengths of the axes, outermost first. -/
abbrev Shape := List Nat

/-- The lengths in brackets; a single one keeps its comma. -/
def Shape.text : Shape → String
  | [n] => s!"({n},)"
  | s => "(" ++ ", ".intercalate (s.map toString) ++ ")"

/-- The number of entries. -/
def Shape.volume (s : Shape) : Nat := s.foldr Nat.mul 1

structure Tensor (K : Type) where
  shape : Shape
  entries : Vector K shape.volume

namespace Tensor
variable {K : Type} {n : Nat}

def ofVector (v : Vector K n) : Tensor K := ⟨[n], v.cast (by simp [Shape.volume])⟩

/-- The entries as a vector of length `n`, if that is the shape. -/
def toVector? (n : Nat) (t : Tensor K) : Option (Vector K n) :=
  if h : t.shape = [n] then some (t.entries.cast (by simp [h, Shape.volume])) else none

def size (t : Tensor K) : Nat := t.shape.volume

theorem shape_ofVector (v : Vector K n) : (ofVector v).shape = [n] := rfl

theorem toVector?_ofVector (v : Vector K n) : (ofVector v).toVector? n = some v := by
  simp [ofVector, toVector?]
  rfl

theorem toVector?_isSome (t : Tensor K) : (t.toVector? n).isSome ↔ t.shape = [n] := by
  unfold toVector?
  split <;> simp_all

end Tensor
end Descent
