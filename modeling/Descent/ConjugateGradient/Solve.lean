import Descent.ConjugateGradient.Problem
import Descent.ConjugateGradient.Workspace
import Descent.Store

/-! Problems solved in place: a minimizer works on a copy of the starting point, and the solution is
read off what it leaves. -/
namespace Descent
variable {K : Type} [Scalar K] {n : Nat}

/-- What the status says. -/
def Solution.message (r : Solution K) : String := r.status.message

/-- The store after a solution, and what happened; with no optimizer nothing did. -/
structure Solved (K : Type) where
  store : Store K
  dim : Nat
  found : Traced (Event K dim) (Fault K) (Solution K)

/-- What can be told of a minimizer that has left its point in an array. -/
def Minimizer.tellArray (m : Minimizer K n) (point : Tensor K) (value : Option K) (success : Bool) :
    Traced (Event K n) (Fault K) (Solution K) :=
  match point.toVector? n with
  | none => .fail (.pointShape n point.shape)
  | some x => m.toOptimizer.tell x value success

/-- What is told after a call. -/
def Call.conclude (c : Call K n) : Traced (Event K n) (Fault K) (Solution K) :=
  concludeWith (c.minimizer.tellArray c.point.values) c.minimizer.memory.fmin c.outcome

/-- Minimizes from an array of the store, which is overwritten. -/
def Minimizer.solveAt (m : Minimizer K n) (s : Store K) (place : Nat) (x : Tensor K)
    (debug : Bool) : Solved K :=
  let call := m.minimize debug ⟨x, .array .float64 true⟩
  let told := call.conclude
  ⟨s.write place call.point.values, n, ⟨told.outcome, call.events ++ told.events⟩⟩

/-- Solves a problem from the array at that place, of which a copy is made. -/
def Problem.solveIn (p : Problem K) (s : Store K) (place : Nat) (debug : Bool) (draft : Draft K) :
    Solved K :=
  match s.read place with
  | none => ⟨s, 0, .fail .entryMissing⟩
  | some x₀ =>
    let copied := s.add x₀
    match p.optimizerAt x₀ draft with
    | .error e => ⟨copied, 0, .fail e⟩
    | .ok ⟨_, o⟩ => Minimizer.solveAt ⟨o, .blank⟩ copied s.next x₀ debug

end Descent
