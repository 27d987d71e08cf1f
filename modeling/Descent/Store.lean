import Descent.Tensor

/-! Arrays that are known by their places. -/
namespace Descent
variable {K : Type} {n : Nat}

/-- All arrays that have been made. None is taken away, and any can be overwritten. -/
structure Store (K : Type) where
  arrays : Array (Tensor K)

namespace Store

def empty : Store K := ⟨#[]⟩

/-- The first place without an array. -/
def next (s : Store K) : Nat := s.arrays.size

def read (s : Store K) (p : Nat) : Option (Tensor K) := s.arrays[p]?

/-- A new array, at the next place. -/
def add (s : Store K) (t : Tensor K) : Store K := ⟨s.arrays.push t⟩

def addAll (s : Store K) (ts : List (Tensor K)) : Store K := ts.foldl add s

def write (s : Store K) (p : Nat) (t : Tensor K) : Store K := ⟨s.arrays.setIfInBounds p t⟩

/-- The vectors of length `n` at these places. -/
def vectors (s : Store K) (n : Nat) (places : List Nat) : List (Vector K n) :=
  places.filterMap fun p => (s.read p).bind (·.toVector? n)

variable {s s' : Store K} {p q : Nat} {t : Tensor K}

@[simp] theorem next_add : (s.add t).next = s.next + 1 := Array.size_push t

@[simp] theorem next_addAll (ts : List (Tensor K)) : (s.addAll ts).next = s.next + ts.length := by
  induction ts generalizing s with
  | nil => rfl
  | cons t ts ih =>
    rw [addAll, List.foldl_cons, ← addAll, ih, next_add, List.length_cons]
    omega

@[simp] theorem next_write : (s.write p t).next = s.next := Array.size_setIfInBounds

theorem read_add_of_lt (h : p < s.next) : (s.add t).read p = s.read p := by
  rw [read, add, Array.getElem?_push_lt h, read, Array.getElem?_eq_getElem h]

theorem read_add_next : (s.add t).read s.next = some t := Array.getElem?_push_size

theorem read_addAll_of_lt (ts : List (Tensor K)) (h : p < s.next) :
    (s.addAll ts).read p = s.read p := by
  induction ts generalizing s with
  | nil => rfl
  | cons t ts ih =>
    rw [addAll, List.foldl_cons, ← addAll, ih (by rw [next_add]; omega), read_add_of_lt h]

theorem read_write_of_ne (h : p ≠ q) : (s.write p t).read q = s.read q :=
  Array.getElem?_setIfInBounds_ne h

theorem read_write (h : p < s.next) : (s.write p t).read p = some t := by
  exact (Array.getElem?_setIfInBounds_self).trans (if_pos h)

theorem exists_read (h : p < s.next) : ∃ t, s.read p = some t :=
  ⟨_, Array.getElem?_eq_getElem h⟩

/-- New arrays are found at the places from the next one on. -/
theorem filterMap_addAll (ts : List (Tensor K)) :
    (List.range' s.next ts.length).filterMap (s.addAll ts).read = ts := by
  induction ts generalizing s with
  | nil => rfl
  | cons t ts ih =>
    have hread : (s.addAll (t :: ts)).read s.next = some t := by
      rw [addAll, List.foldl_cons, ← addAll, read_addAll_of_lt ts (by rw [next_add]; omega),
        read_add_next]
    rw [List.length_cons, List.range'_succ, List.filterMap_cons_some hread]
    have hrest := ih (s := s.add t)
    rw [next_add] at hrest
    exact congrArg _ hrest

end Store
end Descent
