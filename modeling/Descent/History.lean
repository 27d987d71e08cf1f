import Descent.Line

/-! The record of a run: values, iterates and steps, column by column. -/
namespace Descent
variable {K : Type} {n : Nat}

/-- One entry of the record. -/
structure Snapshot (K : Type) (n : Nat) where
  value : K
  point : Vector K n
  step : Vector K n

structure History (K : Type) (n : Nat) where
  values : Array K
  iterates : Array (Vector K n)
  steps : Array (Vector K n)

namespace History

def empty : History K n := ⟨#[], #[], #[]⟩

/-- The dimension of a record has to be positive. -/
def checkDim (dim : Int) : Except (Fault K) Nat :=
  if dim ≤ 0 then .error (.historyDimension dim) else .ok dim.toNat

def push (h : History K n) (s : Snapshot K n) : History K n :=
  ⟨h.values.push s.value, h.iterates.push s.point, h.steps.push s.step⟩

/-- Adds an entry, if both vectors have the dimension of the record. -/
def append (h : History K n) (value : K) (point step : Tensor K) :
    History K n × Except (Fault K) Unit :=
  match point.toVector? n, step.toVector? n with
  | some p, some s => (h.push ⟨value, p, s⟩, .ok ())
  | _, _ => (h, .error (.snapshotShape n point.shape step.shape))

/-- Discards all entries, and adds the initial point with a zero step if such a step can be held and
the point has the dimension of the record. -/
def start [Scalar K] (_ : History K n) (value : K) (point : Tensor K) :
    History K n × Except (Fault K) Unit :=
  if n ≥ Dimension.limit then (empty, .error (.tooLong n))
  else match point.toVector? n with
    | some p => (empty.push ⟨value, p, zeros n⟩, .ok ())
    | none => (empty, .error (.snapshotShape n point.shape [n]))

def size (h : History K n) : Nat := h.values.size

/-- The entries, oldest first. -/
def toList (h : History K n) : List (Snapshot K n) :=
  (h.values.toList.zip (h.iterates.toList.zip h.steps.toList)).map fun (v, p, s) => ⟨v, p, s⟩

theorem toList_empty : (empty : History K n).toList = [] := rfl

/-- As long as the columns are of one length, a new entry comes last. -/
theorem toList_push {h : History K n} (hi : h.iterates.size = h.values.size)
    (hs : h.steps.size = h.values.size) (s : Snapshot K n) :
    (h.push s).toList = h.toList ++ [s] := by
  simp [toList, push, List.zip_append, hi, hs]

/-- A column of vectors as a table, which even without rows must have a size that can be counted. -/
def table (column : Array (Vector K n)) : Except (Fault K) (Array (Vector K n)) :=
  if Dimension.uncountable n then .error (.tooLong n) else .ok column

/-- Adds rows of eight to eight columns. -/
def addRows [Add K] (columns : Vector K 8) : List K → Vector K 8
  | a :: b :: c :: d :: e :: f :: g :: h :: rest => addRows (columns + #v[a, b, c, d, e, f, g, h]) rest
  | _ => columns

/-- The sum of a short list: from the left below eight terms; else in eight columns that are added in
pairs, and then the terms left over. -/
def blockSum [Scalar K] (xs : List K) : K :=
  let full := xs.length / 8 * 8
  match xs.take full with
  | a :: b :: c :: d :: e :: f :: g :: h :: rest =>
    let r := addRows #v[a, b, c, d, e, f, g, h] rest
    let core := (r[0] + r[1] + (r[2] + r[3])) + (r[4] + r[5] + (r[6] + r[7]))
    (xs.drop full).foldl (· + ·) core
  | _ => xs.foldl (· + ·) 0.0

/-- The sum of a list. Beyond 128 terms it is that of two halves, of which the first consists of full
rows of eight. -/
def pairwiseSum [Scalar K] (xs : List K) : K :=
  if xs.length ≤ 128 then blockSum xs
  else
    let half := xs.length / 2 / 8 * 8
    pairwiseSum (xs.take half) + pairwiseSum (xs.drop half)
termination_by xs.length
decreasing_by
  · rw [List.length_take]
    omega
  · rw [List.length_drop]
    omega

/-- The Euclidean length of each step. -/
def stepLengths [Scalar K] (h : History K n) : List K :=
  h.steps.toList.map fun s => sqrt (pairwiseSum ((s.map fun t => t * t).toList))

end History
end Descent
