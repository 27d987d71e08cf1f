import Descent.Course
import Descent.Strategy

/-! Line searches in space: what they call, how they move a point, and the counts they keep. -/
namespace Descent
variable {K : Type} [Scalar K] {n : Nat}

/-- What happens during a run: the functions are called and progress is reported. -/
inductive Event (K : Type) (n : Nat) where
  | value (x : Vector K n)
  | gradient (x : Vector K n)
  | notice (n : Notice K)

def Event.notice? : Event K n → Option (Notice K)
  | notice m => some m
  | _ => none

/-- A probe of the line through `x` along `d` as an event. -/
def Probe.toEvent (x d : Vector K n) : Probe K → Event K n
  | .value t => .value (along x d t)
  | .slope t => .gradient (along x d t)
  | .notice m => .notice m

/-- A strategy with the counts of its last successful search and the number of searches started. -/
structure LineSearch (K : Type) where
  strategy : Strategy K
  nfev : Nat
  njev : Nat
  searches : Nat

namespace LineSearch

def ofStrategy (s : Strategy K) : LineSearch K := ⟨s, 0, 0, 0⟩

/-- After one more search, which ended in this way. -/
def after (s : LineSearch K) (outcome : Except (Fault K) (Step K)) : LineSearch K :=
  match outcome with
  | .ok step => { s with nfev := step.nfev, njev := step.njev, searches := s.searches + 1 }
  | .error _ => { s with searches := s.searches + 1 }

/-- What a search leaves behind. -/
structure Result (K : Type) (n : Nat) where
  search : LineSearch K
  point : Vector K n
  found : Traced (Event K n) (Fault K) (Step K)

/-- Minimizes from `x` along `d`. The point and the counts change only if the search succeeds. -/
def minimize (s : LineSearch K) (f : Objective K n) (g : Gradient K n) (x d : Vector K n)
    (hint : Option K) : Result K n :=
  let found := (s.strategy.search s.searches (.through f g x d) hint).mapEvents (Probe.toEvent x d)
  let point := match found.outcome with
    | .ok step => along x d step.step
    | .error _ => x
  ⟨s.after found.outcome, point, found⟩

section
variable {s : LineSearch K} {f : Objective K n} {g : Gradient K n} {x d : Vector K n}
  {hint : Option K}

theorem minimize_of_ok {step : Step K}
    (h : (s.strategy.search s.searches (.through f g x d) hint).outcome = .ok step) :
    (s.minimize f g x d hint).point = along x d step.step ∧
      (s.minimize f g x d hint).search.nfev = step.nfev ∧
      (s.minimize f g x d hint).search.njev = step.njev := by
  simp [minimize, after, Traced.mapEvents, h]

theorem minimize_of_error {e : Fault K}
    (h : (s.strategy.search s.searches (.through f g x d) hint).outcome = .error e) :
    (s.minimize f g x d hint).point = x ∧ (s.minimize f g x d hint).search.nfev = s.nfev ∧
      (s.minimize f g x d hint).search.njev = s.njev := by
  simp [minimize, after, Traced.mapEvents, h]

end

/-- Minimizes from a point along a direction that may be of another length. The point keeps its
length: a search that would make it longer or shorter fails when it is over. -/
def minimizeLists (s : LineSearch K) (f : ∀ n, Objective K n) (g : ∀ n, Gradient K n)
    (x d : List K) (hint : Option K) :
    LineSearch K × List K × Traced (Notice K) (Fault K) (Step K) :=
  match Course.ofLists x d with
  | .error e => (s.after (.error e), x, .fail e)
  | .ok c =>
    let found := s.strategy.search s.searches (c.line (f c.dim) (g c.dim)) hint
    let outcome := do
      let step ← found.outcome
      if c.dim = x.length then .ok step else .error (.pointOutgrown x.length c.dim)
    let point := match outcome with
      | .ok step => (along c.point c.direction step.step).toList
      | .error _ => x
    (s.after outcome, point, ⟨outcome, found.events.filterMap Probe.notice?⟩)

end LineSearch

namespace Wolfe

/-- The strong Wolfe search from a point along a direction that may be of another length, with
functions that may be missing. The constants are checked first and the lengths before the functions
are called; a missing function fails when it is called. -/
def searchFrom (f : Option (∀ n, Objective K n)) (g : Option (∀ n, Gradient K n))
    (x d : List K) (o : Options K) :
    (n : Nat) × Traced (Event K n) (Fault K) (Step K) :=
  if ¬ Ordered o.c1 o.c2 then ⟨0, .fail .unorderedConstants⟩
  else match Course.ofLists x d with
    | .error e => ⟨0, .fail e⟩
    | .ok c =>
      let l := c.line ((f.map (· c.dim)).getD fun _ => .error .functionMissing)
        ((g.map (· c.dim)).getD fun _ => .error .functionMissing)
      ⟨c.dim, (search l o).filterMapEvents fun
        | .value t => if f.isSome then some (.value (along c.point c.direction t)) else none
        | .slope t => if g.isSome then some (.gradient (along c.point c.direction t)) else none
        | .notice m => some (.notice m)⟩

end Wolfe
end Descent
