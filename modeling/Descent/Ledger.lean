import Descent.History
import Descent.Store

/-! The record as it is kept in place: its vectors are arrays of a store, beside those of its user,
who may overwrite what he hands in and what he gets. -/
namespace Descent
variable {K : Type} {n : Nat}

namespace Tensor

def ofList (xs : List K) : Tensor K := .ofVector ⟨xs.toArray, rfl⟩

/-- A table of rows of equal length. -/
def ofRows (rows : List (Vector K n)) : Tensor K where
  shape := [rows.length, n]
  entries := ⟨(rows.flatMap Vector.toList).toArray, by
    simp [List.length_flatMap, Shape.volume, List.map_const']⟩

end Tensor

/-- What can be read off a record. -/
inductive Reading where
  | values
  | iterates
  | steps
  | stepLengths
  /-- The iterates one by one. -/
  | copies

/-- New arrays with what is read. -/
def History.answer [Scalar K] (h : History K n) : Reading → Except (Fault K) (List (Tensor K))
  | .values => .ok [.ofList h.values.toList]
  | .iterates => do return [.ofRows (← table h.iterates).toList]
  | .steps => do return [.ofRows (← table h.steps).toList]
  | .stepLengths => do
    let _ ← table h.steps
    return [.ofList h.stepLengths]
  | .copies => .ok (h.iterates.toList.map .ofVector)

/-- A record by the places of its vectors. -/
structure Ledger (K : Type) where
  values : Array K
  iterates : Array Nat
  steps : Array Nat

namespace Ledger

def empty : Ledger K := ⟨#[], #[], #[]⟩

/-- The record, as its arrays are now. -/
def history (n : Nat) (r : Ledger K) (s : Store K) : History K n :=
  ⟨r.values, (s.vectors n r.iterates.toList).toArray, (s.vectors n r.steps.toList).toArray⟩

/-- What an operation leaves. -/
structure Result (K : Type) where
  ledger : Ledger K
  store : Store K
  outcome : Except (Fault K) Unit

/-- Enters copies of two vectors, which are made at the next places. -/
def push (r : Ledger K) (s : Store K) (value : K) (point : Tensor K) : Ledger K :=
  ⟨r.values.push value, r.iterates.push s.next, r.steps.push (s.add point).next⟩

/-- Adds an entry with copies of both vectors, if they have the dimension of the record. -/
def append (n : Nat) (r : Ledger K) (s : Store K) (value : K) (point step : Tensor K) : Result K :=
  if point.shape = [n] ∧ step.shape = [n] then
    ⟨r.push s value point, (s.add point).add step, .ok ()⟩
  else ⟨r, s, .error (.snapshotShape n point.shape step.shape)⟩

/-- Discards all entries, and adds the initial point with a zero step if such a step can be held. -/
def start [Scalar K] (n : Nat) (_ : Ledger K) (s : Store K) (value : K) (point : Tensor K) :
    Result K :=
  if n ≥ Dimension.limit then ⟨empty, s, .error (.tooLong n)⟩
  else empty.append n s value point (.ofVector (zeros n))

/-- What a user does. He has arrays, which are counted from zero. -/
inductive Request (K : Type) where
  | make (t : Tensor K)
  /-- Overwrites one of his arrays. -/
  | change (i : Nat) (t : Tensor K)
  | start (value : K) (i : Nat)
  | append (value : K) (i j : Nat)
  | clear
  /-- The arrays that are made for this are his. -/
  | read (what : Reading)

/-- A record and the arrays that its user has, by their places. -/
structure Session (K : Type) where
  store : Store K
  ledger : Ledger K
  held : List Nat

namespace Session

def blank : Session K := ⟨.empty, .empty, []⟩

/-- The user's arrays, as they are now. -/
def arrays (s : Session K) : List (Tensor K) := s.held.filterMap s.store.read

/-- The record, as its arrays are now. -/
def history (n : Nat) (s : Session K) : History K n := s.ledger.history n s.store

/-- Makes arrays for the user. -/
def hand (s : Session K) (ts : List (Tensor K)) : Session K :=
  { s with store := s.store.addAll ts, held := s.held ++ List.range' s.store.next ts.length }

/-- After an operation on the record. -/
def after (s : Session K) (r : Result K) : Session K × Except (Fault K) Unit :=
  ({ s with store := r.store, ledger := r.ledger }, r.outcome)

variable [Scalar K]

/-- One request. It fails if the user has no such array, or asks for one that cannot be held. -/
def serve (n : Nat) (s : Session K) : Request K → Session K × Except (Fault K) Unit
  | .make t =>
    if t.size ≥ Dimension.limit then (s, .error (.tooLong t.size)) else (s.hand [t], .ok ())
  | .change i t =>
    if t.size ≥ Dimension.limit then (s, .error (.tooLong t.size))
    else match s.held[i]? with
      | some p => ({ s with store := s.store.write p t }, .ok ())
      | none => (s, .error .entryMissing)
  | .start value i =>
    match s.arrays[i]? with
    | some x => s.after (s.ledger.start n s.store value x)
    | none => (s, .error .entryMissing)
  | .append value i j =>
    match s.arrays[i]?, s.arrays[j]? with
    | some x, some d => s.after (s.ledger.append n s.store value x d)
    | _, _ => (s, .error .entryMissing)
  | .clear => ({ s with ledger := .empty }, .ok ())
  | .read what =>
    match (s.history n).answer what with
    | .ok ts => (s.hand ts, .ok ())
    | .error e => (s, .error e)

/-- All requests, one after the other, with their outcomes. -/
def run (n : Nat) (s : Session K) : List (Request K) → Session K × List (Except (Fault K) Unit)
  | [] => (s, [])
  | q :: qs =>
    let (s, outcome) := s.serve n q
    let (s, outcomes) := s.run n qs
    (s, outcome :: outcomes)

end Session
end Ledger
end Descent
